import Phantom.Tcp.Control

/-! A listening TCP socket of `tcp.c`: the table of its children, keyed by a hash of their peers, and
the queue of the children that wait to be accepted. -/
namespace Phantom
namespace Tcp

/-- The address of a peer, as the numbers that the packet header holds. -/
structure Peer where
  ip : UInt32
  port : UInt16
  deriving DecidableEq, Repr

/-- `g_str_hash`. -/
def strHash (s : List Char) : ℕ := s.foldl (fun h c ↦ (h*33+c.toNat)%2^32) 5381

/-- `utility_ipPortHash`: the hash of the address and the port in decimal. -/
def ipPortHash (peer : Peer) : ℕ :=
  strHash (Nat.toDigits 10 peer.ip.toNat++ ':'::Nat.toDigits 10 peer.port.toNat)

inductive ChildState
  | incomplete
  | pending
  | accepted
  deriving DecidableEq, Repr

/-- A child; `handle` is its descriptor, by which it is also known as an object. -/
structure Child where
  handle : ℕ
  peer : Peer
  state : ChildState
  socket : Endpoint

def Child.key (c : Child) : ℕ := ipPortHash c.peer

/-- The server part of a listening socket. Children that have left the table are kept apart, since
the queue and their tasks may still refer to them. -/
structure Server where
  env : Env
  receiveBufSize : ℕ
  sendBufSize : ℕ
  children : List Child
  removed : List Child
  pending : List ℕ
  readable : Bool
  nextHandle : ℕ
  aborted : Bool

/-- A packet from a peer. -/
structure Arrival where
  peer : Peer
  packet : Packet
  now : ℕ
  takes : List ℕ

inductive AcceptError
  | ewouldblock
  | econnaborted
  deriving DecidableEq, Repr

namespace Server

/-- A socket that starts to listen. -/
def listen (env : Env) (receiveBufSize sendBufSize : ℕ) : Server :=
  ⟨env,receiveBufSize,sendBufSize,[],[],[],false,0,false⟩

/-- The lookup in the table of children. -/
def lookup (s : Server) (key : ℕ) : Option Child := s.children.find? fun c ↦ c.key=key

/-- `_tcp_getSourceTCP`; without a child, the packet is for the listening socket itself. -/
def getSourceTCP (s : Server) (peer : Peer) : Option Child := s.lookup (ipPortHash peer)

/-- A change of an object, in the table or out of it. -/
def replace (s : Server) (c : Child) : Server :=
  {s with
    children := s.children.map fun d ↦ if d.handle=c.handle then c else d
    removed := s.removed.map fun d ↦ if d.handle=c.handle then c else d}

/-- The removal of a key from the table. -/
def unlink (s : Server) (key : ℕ) : Server :=
  {s with
    children := s.children.filter fun d ↦ d.key ≠ key
    removed := s.removed++s.children.filter fun d ↦ d.key=key}

/-- A child that has closed removes its key from the table. -/
def unlinkClosed (s : Server) (c : Child) : Server :=
  if c.socket.state=.closed then s.unlink c.key else s

/-- The packet ends the handshake of the child. -/
def completes (c : Child) (p : Packet) : Bool :=
  c.socket.state=.synReceived && !p.flags.rst && p.flags.ack

/-- The child after a packet for it. -/
def received (c : Child) (a : Arrival) : Child :=
  {c with
    socket := (c.socket.atTime a.now a.takes).processPacket a.packet
    state := if completes c a.packet then .pending else c.state}

/-- A child whose handshake ends waits to be accepted. -/
def queueCompleted (s : Server) (c : Child) (a : Arrival) : Server :=
  if completes c a.packet then {s with pending := s.pending++[c.handle], readable := true} else s

/-- The packet is for an existing child. -/
def childPacket (s : Server) (c : Child) (a : Arrival) : Server :=
  ((s.queueCompleted c a).replace (received c a)).unlinkClosed (received c a)

/-- A SYN for the listening socket makes a child. -/
def newChild (s : Server) (a : Arrival) : Server :=
  let child : Child := ⟨s.nextHandle,a.peer,.incomplete,
    Endpoint.newChild s.env s.receiveBufSize s.sendBufSize a.now a.takes a.packet⟩
  {s with
    aborted := s.aborted || (s.lookup child.key).isSome
    children := (s.children.filter fun d ↦ d.key ≠ child.key)++[child]
    nextHandle := s.nextHandle+1}

def processPacket (s : Server) (a : Arrival) : Server :=
  match s.getSourceTCP a.peer with
  | some c => s.childPacket c a
  | none => if a.packet.flags.rst then s else if a.packet.flags.syn then s.newChild a else s

/-- The object that a pending entry refers to. -/
def object (s : Server) (handle : ℕ) : Option Child :=
  (s.children++s.removed).find? fun c ↦ c.handle=handle

def isReset (c : Child) : Bool := c.socket.error=⟨true,false,false⟩

/-- The child as `tcp_acceptServerPeer` leaves it. -/
def markAccepted (c : Child) : Child :=
  {c with
    state := .accepted
    socket := (c.socket.setActive true).setWritable true}

/-- `tcp_acceptServerPeer` on a listening socket. -/
def acceptServerPeer (s : Server) : Except AcceptError ℕ × Server :=
  match s.pending with
  | [] => (.error .ewouldblock,{s with readable := false})
  | handle::rest =>
    let s := {s with pending := rest}
    match s.object handle with
    | none => (.error .econnaborted,s)
    | some c =>
      if isReset c then (.error .econnaborted,s)
      else (.ok handle,{s.replace (markAccepted c) with readable := !rest.isEmpty})

/-- The close timer of an object expires. -/
def closeTimer (s : Server) (c : Child) (now : ℕ) (takes : List ℕ) : Server :=
  let c' := {c with socket := (c.socket.atTime now takes).runCloseTimerExpiredTask}
  (s.replace c').unlinkClosed c'

/-- The last reference to an object goes away. `_tcp_free` removes its key from the table. -/
def free (s : Server) (c : Child) : Server :=
  let s := s.unlink c.key
  {s with removed := s.removed.filter fun d ↦ d.handle ≠ c.handle}

end Server

inductive ServerEvent
  | packet (a : Arrival)
  | closeTimer (handle now : ℕ) (takes : List ℕ)
  | accept
  | free (handle : ℕ)

namespace Server

/-- The server after an event; a timer or a release of an object that does not exist is no event. -/
def step (s : Server) : ServerEvent → Server
  | .packet a => s.processPacket a
  | .closeTimer handle now takes =>
    match s.object handle with
    | none => s
    | some c => if 0<c.socket.closeTasks then s.closeTimer c now takes else s
  | .accept => s.acceptServerPeer.2
  | .free handle =>
    match s.removed.find? fun c ↦ c.handle=handle with
    | none => s
    | some c => s.free c

/-- The child whose handshake the event completes. -/
def completedBy (s : Server) : ServerEvent → List ℕ
  | .packet a =>
    match s.getSourceTCP a.peer with
    | none => []
    | some c => if completes c a.packet then [c.handle] else []
  | _ => []

/-- The child that the event hands out. -/
def handedOutBy (s : Server) : ServerEvent → List ℕ
  | .accept =>
    match s.acceptServerPeer.1 with
    | .ok handle => [handle]
    | .error _ => []
  | _ => []

end Server
end Tcp
end Phantom
