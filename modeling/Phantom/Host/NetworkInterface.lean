import Mathlib.Tactic

/-! The sockets of one host, their names, and the associations of its network interfaces. -/
namespace Phantom
namespace Net

inductive ProtocolType
  | tcp
  | udp
  deriving DecidableEq, Repr

inductive Family
  | inet
  | unspec
  | other
  deriving DecidableEq, Repr

inductive Errno
  | ebadf
  | einval
  | eaddrinuse
  | eaddrnotavail
  | econnrefused
  | eafnosupport
  | eopnotsupp
  | edestaddrreq
  deriving DecidableEq, Repr

/-- How a call ends without success: an error code, a failed assertion, or a search that never
ends. -/
inductive Stop
  | errno (e : Errno)
  | abort
  | hang
  deriving DecidableEq, Repr

def inaddrAny : ℕ := 0

/-- 127.0.0.1 in network order. -/
def inaddrLoopback : ℕ := 16777343

def minRandomPort : ℕ := 10000

def htons (p : ℕ) : ℕ := p%256*256+p/256%256

/-- Names of a socket; `unused` holds while a TCP socket has neither state nor flags. -/
structure Socket where
  protocol : ProtocolType
  peerIP : ℕ
  peerPort : ℕ
  boundAddress : ℕ
  boundPort : ℕ
  isBound : Bool
  unused : Bool

namespace Socket

def new (p : ProtocolType) : Socket := ⟨p,0,0,0,0,false,true⟩

def setPeerName (s : Socket) (ip port : ℕ) : Socket := {s with peerIP := ip, peerPort := port}

def setSocketName (s : Socket) (ip port : ℕ) : Socket :=
  {s with boundAddress := ip, boundPort := port, isBound := true}

/-- The peer name that the callers see: they preset the outputs to zero. -/
def getPeerName (s : Socket) : ℕ × ℕ :=
  if s.peerIP=0 ∨ s.peerPort=0 then (0,0) else (s.peerIP,s.peerPort)

def getSocketAddress (s : Socket) : ℕ :=
  if s.boundAddress=inaddrAny ∧ s.peerIP=inaddrLoopback then inaddrLoopback else s.boundAddress

end Socket

/-- An association key without the address of the interface that owns the table. -/
structure AssociationKey where
  protocol : ProtocolType
  port : ℕ
  peerAddr : ℕ
  peerPort : ℕ
  deriving DecidableEq, Repr

namespace AssociationKey

def general (k : AssociationKey) : AssociationKey := ⟨k.protocol,k.port,0,0⟩

def General (k : AssociationKey) : Prop := k.peerAddr=0 ∧ k.peerPort=0

instance (k : AssociationKey) : Decidable k.General := inferInstanceAs (Decidable (_ ∧ _))

end AssociationKey

def socketToAssociationKey (s : Socket) : AssociationKey :=
  ⟨s.protocol,s.boundPort,s.getPeerName.1,s.getPeerName.2⟩

/-- The parts of a packet that choose its socket. -/
structure Packet where
  protocol : ProtocolType
  sourceIP : ℕ
  sourcePort : ℕ
  destinationPort : ℕ

def Packet.generalKey (p : Packet) : AssociationKey := ⟨p.protocol,p.destinationPort,0,0⟩

def Packet.specificKey (p : Packet) : AssociationKey :=
  ⟨p.protocol,p.destinationPort,p.sourceIP,p.sourcePort⟩

/-- `boundSockets` has one table for each interface address. An open socket is an entry of
`sockets`; identities at or above `nextSocket` have never been used. -/
structure Host where
  defaultIP : ℕ
  default_ne_any : defaultIP ≠ inaddrAny
  routable : ℕ → Bool
  boundSockets : ℕ → AssociationKey → Option ℕ
  sockets : ℕ → Option Socket
  nextSocket : ℕ

namespace Host

/-- A host before its first socket. -/
def new (ip : ℕ) (h : ip ≠ inaddrAny) (routable : ℕ → Bool) : Host :=
  ⟨ip,h,routable,fun _ _ ↦ none,fun _ ↦ none,0⟩

/-- The interface table has the ethernet address and the loopback address as its keys. -/
def interfaces (h : Host) : List ℕ :=
  if h.defaultIP=inaddrLoopback then [inaddrLoopback] else [h.defaultIP,inaddrLoopback]

def setSocket (h : Host) (s : ℕ) (o : Option Socket) : Host :=
  {h with sockets := Function.update h.sockets s o}

def setEntry (h : Host) (i : ℕ) (k : AssociationKey) (o : Option ℕ) : Host :=
  {h with boundSockets := Function.update h.boundSockets i (Function.update (h.boundSockets i) k o)}

end Host

def isAssociated (h : Host) (i : ℕ) (type : ProtocolType) (port peerAddr peerPort : ℕ) : Bool :=
  (h.boundSockets i ⟨type,port,0,0⟩).isSome || (h.boundSockets i ⟨type,port,peerAddr,peerPort⟩).isSome

/-- The insertion asserts that the key is free. -/
def associate (h : Host) (i s : ℕ) (sock : Socket) : Except Stop Host :=
  if (h.boundSockets i (socketToAssociationKey sock)).isSome then .error .abort
  else .ok (h.setEntry i (socketToAssociationKey sock) (some s))

def disassociate (h : Host) (i : ℕ) (sock : Socket) : Host :=
  h.setEntry i (socketToAssociationKey sock) none

/-- The socket that the interface hands the packet to. -/
def receivePacket (h : Host) (i : ℕ) (p : Packet) : Option ℕ :=
  match h.boundSockets i p.generalKey with
  | some s => some s
  | none => h.boundSockets i p.specificKey

def doesInterfaceExist (h : Host) (ip : ℕ) : Bool := ip=inaddrAny || h.interfaces.contains ip

def isInterfaceAvailable (h : Host) (type : ProtocolType) (ip port peerIP peerPort : ℕ) : Bool :=
  if ip=inaddrAny then h.interfaces.all fun i ↦ !isAssociated h i type port peerIP peerPort
  else !isAssociated h ip type port peerIP peerPort

def associateInterface (h : Host) (s : ℕ) (sock : Socket) (bindAddress : ℕ) : Except Stop Host :=
  if bindAddress=inaddrAny then h.interfaces.foldlM (fun h i ↦ associate h i s sock) h
  else associate h bindAddress s sock

def disassociateInterface (h : Host) (sock : Socket) : Host :=
  if sock.isBound then
    if sock.getSocketAddress=inaddrAny then h.interfaces.foldl (fun h i ↦ disassociate h i sock) h
    else disassociate h sock.getSocketAddress sock
  else h

def randomPort (r : Fin (65536-minRandomPort)) : ℕ := htons (minRandomPort+r)

/-- The linear search of `getRandomFreePort`. The port steps through a cycle of fewer than 65536
values, so a search that outlasts its fuel never ends. -/
def linearSearch (available : ℕ → Bool) (start : ℕ) : ℕ → ℕ → Option ℕ
  | 0,_ => none
  | fuel+1,next =>
    if next=start then some 0
    else if available next then some next
    else linearSearch available start fuel (if next=65535 then minRandomPort else next+1)

/-- Ten random picks, then a search from an eleventh. The result 0 means that no port is free, and
`none` that the search never ends. -/
def getRandomFreePort (h : Host) (type : ProtocolType) (ip peerIP peerPort : ℕ)
    (picks : ℕ → Fin (65536-minRandomPort)) : Option ℕ :=
  let available := fun p ↦ isInterfaceAvailable h type ip p peerIP peerPort
  match (List.range 10).find? fun n ↦ available (randomPort (picks n)) with
  | some n => some (randomPort (picks n))
  | none =>
    let start := randomPort (picks 10)
    linearSearch available start 65536 (if start=65535 then minRandomPort else start+1)

/-- The port of a bind: the given one, or an ephemeral one where none is given. -/
def bindPort (h : Host) (type : ProtocolType) (addr port peerAddr peerPort : ℕ)
    (picks : ℕ → Fin (65536-minRandomPort)) : Option ℕ :=
  if port=0 then getRandomFreePort h type addr peerAddr peerPort picks else some port

/-- Names the socket and associates it. -/
def nameAndAssociate (h : Host) (s : ℕ) (sock : Socket) (addr port peerAddr peerPort : ℕ) :
    Except Stop Host :=
  let named := (sock.setPeerName peerAddr peerPort).setSocketName addr port
  associateInterface (h.setSocket s (some named)) s named addr

def bindHelper (h : Host) (s : ℕ) (sock : Socket) (addr port peerAddr peerPort : ℕ)
    (picks : ℕ → Fin (65536-minRandomPort)) : Except Stop Host :=
  if !doesInterfaceExist h addr then .error (.errno .einval)
  else match bindPort h sock.protocol addr port peerAddr peerPort picks with
    | none => .error .hang
    | some port =>
      if port=0 then .error (.errno .eaddrinuse)
      else if !isInterfaceAvailable h sock.protocol addr port peerAddr peerPort then
        .error (.errno .eaddrinuse)
      else nameAndAssociate h s sock addr port peerAddr peerPort

/-- A UDP socket takes a new default peer; a TCP socket keeps the name that its bind gave it and
starts its handshake. -/
def connectToPeer (sock : Socket) (ip port : ℕ) (family : Family) : Socket :=
  match sock.protocol with
  | .udp => if family=.unspec then sock.setPeerName 0 0 else sock.setPeerName ip port
  | .tcp => {sock with unused := false}

/-- The system calls on sockets, with the random picks of those that may need an ephemeral port. -/
inductive Call
  | socket (p : ProtocolType)
  | bind (s addr port : ℕ) (picks : ℕ → Fin (65536-minRandomPort))
  | connect (s : ℕ) (family : Family) (ip port : ℕ) (picks : ℕ → Fin (65536-minRandomPort))
  | listen (s : ℕ) (picks : ℕ → Fin (65536-minRandomPort))
  | sendto (s ip port : ℕ) (picks : ℕ → Fin (65536-minRandomPort))
  | close (s : ℕ)

def socketNew (h : Host) (p : ProtocolType) : Host :=
  {h.setSocket h.nextSocket (some (.new p)) with nextSocket := h.nextSocket+1}

def bind (h : Host) (s addr port : ℕ) (picks : ℕ → Fin (65536-minRandomPort)) : Except Stop Host :=
  match h.sockets s with
  | none => .error (.errno .ebadf)
  | some sock =>
    if sock.isBound then .error (.errno .einval) else bindHelper h s sock addr port 0 0 picks

def connectAddr (ip : ℕ) : ℕ := if ip=inaddrAny then inaddrLoopback else ip

/-- The error with which a connect is refused before it binds. -/
def connectRefusal (h : Host) (sock : Socket) (family : Family) (ip : ℕ) : Option Errno :=
  if family=.other ∨ (family=.unspec ∧ sock.protocol=.tcp) then some .eafnosupport
  else if connectAddr ip ≠ inaddrLoopback ∧ h.routable (connectAddr ip)=false then
    some .econnrefused
  else none

/-- The interface of an implicit bind to a destination. -/
def implicitAddr (h : Host) (ip : ℕ) : ℕ := if ip=inaddrLoopback then inaddrLoopback else h.defaultIP

def finishConnect (h : Host) (s ip port : ℕ) (family : Family) : Host :=
  h.setSocket s ((h.sockets s).map fun sock ↦ connectToPeer sock ip port family)

def connect (h : Host) (s : ℕ) (family : Family) (ip port : ℕ)
    (picks : ℕ → Fin (65536-minRandomPort)) : Except Stop Host :=
  match h.sockets s with
  | none => .error (.errno .ebadf)
  | some sock =>
    match connectRefusal h sock family ip with
    | some e => .error (.errno e)
    | none =>
      if sock.isBound then .ok (finishConnect h s (connectAddr ip) port family)
      else (bindHelper h s sock (implicitAddr h (connectAddr ip)) 0 (connectAddr ip) port picks).map
        fun h ↦ finishConnect h s (connectAddr ip) port family

/-- The check for an earlier listen is behind the one for an unused socket, which a listener
fails. -/
def listen (h : Host) (s : ℕ) (picks : ℕ → Fin (65536-minRandomPort)) : Except Stop Host :=
  match h.sockets s with
  | none => .error (.errno .ebadf)
  | some sock =>
    if sock.protocol=.udp ∨ sock.unused=false then .error (.errno .eopnotsupp)
    else (if sock.isBound then .ok h else bindHelper h s sock inaddrAny 0 0 0 picks).map
      fun h ↦ h.setSocket s ((h.sockets s).map fun sock ↦ {sock with unused := false})

/-- The destination of a datagram: the given one, or else the socket's peer. -/
def destination (sock : Socket) (ip port : ℕ) : ℕ × ℕ :=
  if ip=0 ∨ port=0 then sock.getPeerName else (ip,port)

/-- Sending on an unbound UDP socket binds it first, for every peer. -/
def sendto (h : Host) (s ip port : ℕ) (picks : ℕ → Fin (65536-minRandomPort)) : Except Stop Host :=
  match h.sockets s with
  | none => .error (.errno .ebadf)
  | some sock =>
    if sock.protocol=.tcp then .ok h
    else if (destination sock ip port).1=0 ∨ (destination sock ip port).2=0 then
      .error (.errno .edestaddrreq)
    else if sock.isBound then .ok h
    else
      let addr := implicitAddr h (destination sock ip port).1
      match getRandomFreePort h sock.protocol addr 0 0 picks with
      | none => .error .hang
      | some p =>
        if p=0 then .error (.errno .eaddrnotavail) else nameAndAssociate h s sock addr p 0 0

/-- The moment at which the descriptor leaves its process: within the close of a UDP socket, and
when a TCP socket reaches its closed state. -/
def close (h : Host) (s : ℕ) : Except Stop Host :=
  match h.sockets s with
  | none => .error (.errno .ebadf)
  | some sock => .ok ((disassociateInterface h sock).setSocket s none)

def step (h : Host) : Call → Except Stop Host
  | .socket p => .ok (socketNew h p)
  | .bind s addr port picks => bind h s addr port picks
  | .connect s family ip port picks => connect h s family ip port picks
  | .listen s picks => listen h s picks
  | .sendto s ip port picks => sendto h s ip port picks
  | .close s => close h s

/-- A call that stops leaves the host as it was. -/
def exec (h : Host) (c : Call) : Host :=
  match step h c with
  | .ok h' => h'
  | .error _ => h

def run (h : Host) (cs : List Call) : Host := cs.foldl exec h

end Net
end Phantom
