import Phantom.Routing.RouterQueue
import Phantom.Utility.PriorityQueue

/-! How an interface of `network_interface.c` sends and receives: the output buffers of the sockets,
the queuing disciplines, the token buckets and their refill task. -/
namespace Phantom
namespace Transmit

/-- The output buffers of a socket. -/
structure Sock where
  outputControlBuffer : List Packet
  outputBuffer : List Packet
  outputBufferLength : ℕ
  outputBufferSize : ℕ
  outputBufferSizePending : ℕ

namespace Sock

def new (outputBufferSize : ℕ) : Sock := ⟨[],[],0,outputBufferSize,0⟩

/-- The packets in the order in which they leave, control packets first. -/
def packets (s : Sock) : List Packet := s.outputControlBuffer++s.outputBuffer

def peekNextOutPacket (s : Sock) : Option Packet :=
  match s.outputControlBuffer with
  | p::_ => some p
  | [] => s.outputBuffer.head?

def getOutputBufferSpace (s : Sock) : ℕ :=
  (if 0<s.outputBufferSizePending then s.outputBufferSizePending else s.outputBufferSize)-
    s.outputBufferLength

def setOutputBufferSize (s : Sock) (newSize : ℕ) : Sock :=
  if s.outputBufferLength ≤ newSize then
    {s with outputBufferSize := newSize, outputBufferSizePending := 0}
  else {s with outputBufferSize := s.outputBufferLength, outputBufferSizePending := newSize}

/-- The part of `socket_addToOutputBuffer` that changes the socket, if the packet fits. -/
def addToOutputBuffer (s : Sock) (p : Packet) : Option Sock :=
  if s.getOutputBufferSpace<p.payloadLength then none
  else
    let s := {s with outputBufferLength := s.outputBufferLength+p.payloadLength}
    some (if p.priority=0 then {s with outputControlBuffer := s.outputControlBuffer++[p]}
      else {s with outputBuffer := s.outputBuffer++[p]})

/-- A packet has left the buffers. -/
def removed (s : Sock) (p : Packet) : Sock :=
  let s := {s with outputBufferLength := s.outputBufferLength-p.payloadLength}
  if 0<s.outputBufferSizePending then s.setOutputBufferSize s.outputBufferSizePending else s

def removeFromOutputBuffer (s : Sock) : Option (Packet × Sock) :=
  match s.outputControlBuffer,s.outputBuffer with
  | p::ps,_ => some (p,{s with outputControlBuffer := ps}.removed p)
  | [],p::ps => some (p,{s with outputBuffer := ps}.removed p)
  | [],[] => none

end Sock

structure TokenBucket where
  bytesCapacity : ℕ
  bytesRemaining : ℕ
  bytesRefill : ℕ

namespace TokenBucket

def refill (b : TokenBucket) : TokenBucket :=
  {b with bytesRemaining := min (b.bytesRemaining+b.bytesRefill) b.bytesCapacity}

def consume (b : TokenBucket) (bytesConsumed : ℕ) : TokenBucket :=
  if b.bytesRemaining ≤ bytesConsumed then {b with bytesRemaining := 0}
  else {b with bytesRemaining := b.bytesRemaining-bytesConsumed}

def isFull (b : TokenBucket) : Bool := b.bytesCapacity ≤ b.bytesRemaining

/-- The bucket of a bandwidth in KiB per second; it is empty until it is refilled. -/
def setup (bwKiBps : ℕ) : TokenBucket :=
  let bytesRefill := bwKiBps*1024%2^64/1000
  ⟨bytesRefill*1+mtu,0,bytesRefill⟩

end TokenBucket

inductive QDiscMode
  | roundRobin
  | fifo
  deriving DecidableEq, Repr

/-- What an interface has done. A packet is sent by a socket while others wait, each of them with a
packet or not; `tokens` is what the bucket held, and `charged` whether it was charged. -/
inductive Entry
  | sent (socket : ℕ) (packet : Packet) (tokens : ℕ) (charged : Bool) (waiting : List ℕ)
      (ready : Bool)
  | received (packet : Packet) (tokens : ℕ) (charged : Bool)
  | refill
  deriving DecidableEq

/-- An interface. The references are those that its queue holds on sockets, and `refillTasks` are the
times of the scheduled tasks. -/
structure Interface where
  address : ℕ
  router : Option RouterQueue
  qdisc : QDiscMode
  rrQueue : List ℕ
  fifoQueue : PriorityQueue ℕ
  sendBucket : TokenBucket
  receiveBucket : TokenBucket
  timeStartedRefillingBuckets : ℕ
  isRefillPending : Bool
  refillTasks : List ℕ
  references : List ℕ
  aborted : Bool
  log : List Entry

/-- The time and the end of the bootstrapping phase, in which bandwidth is not limited. -/
structure Clock where
  now : ℕ
  bootstrapEndTime : ℕ

def Clock.isBootstrapActive (c : Clock) : Bool := c.now<c.bootstrapEndTime

namespace Interface

def new (address : ℕ) (router : Option RouterQueue) (qdisc : QDiscMode)
    (bwDownKiBps bwUpKiBps : ℕ) : Interface :=
  ⟨address,router,qdisc,[],.new,.setup bwUpKiBps,.setup bwDownKiBps,0,false,[],[],false,[]⟩

def refillInterval : ℕ := oneMillisecond

def scheduleRefillTask (i : Interface) (c : Clock) (delay : ℕ) : Interface :=
  {i with refillTasks := i.refillTasks++[c.now+delay], isRefillPending := true}

def scheduleNextRefill (i : Interface) (c : Clock) : Interface :=
  let offset := c.now-i.timeStartedRefillingBuckets
  i.scheduleRefillTask c (refillInterval-offset%refillInterval)

def isRefillNeeded (i : Interface) : Bool :=
  (!i.sendBucket.isFull || !i.receiveBucket.isFull) && !i.isRefillPending

def scheduleNextRefillIfNeeded (i : Interface) (c : Clock) : Interface :=
  if i.isRefillNeeded then i.scheduleNextRefill c else i

/-- The sockets of the active queue. -/
def waiting (i : Interface) : List ℕ :=
  match i.qdisc with
  | .roundRobin => i.rrQueue
  | .fifo => i.fifoQueue.heap

/-- `rrsocketqueue_find` or `fifosocketqueue_find`. -/
def findSocket (i : Interface) (s : ℕ) : Bool := i.waiting.contains s

end Interface

/-- The order of the FIFO discipline: the priorities of the next packets. -/
def compareSocket (sockets : ℕ → Sock) (a b : ℕ) : Ordering :=
  match (sockets a).peekNextOutPacket,(sockets b).peekNextOutPacket with
  | none,_ => .lt
  | some _,none => .gt
  | some pa,some pb => if pb.priority<pa.priority then .gt else .lt

/-- An interface with the sockets of its host. -/
structure Link where
  interface : Interface
  sockets : ℕ → Sock

namespace Link

def setInterface (l : Link) (i : Interface) : Link := {l with interface := i}

def setSocket (l : Link) (s : ℕ) (sock : Sock) : Link :=
  {l with sockets := Function.update l.sockets s sock}

/-- The socket has a packet to send. -/
def hasPacket (l : Link) (s : ℕ) : Bool := (l.sockets s).peekNextOutPacket.isSome

/-- `rrsocketqueue_push` or `fifosocketqueue_push`. -/
def pushSocket (l : Link) (s : ℕ) : Link :=
  match l.interface.qdisc with
  | .roundRobin => l.setInterface {l.interface with rrQueue := l.interface.rrQueue++[s]}
  | .fifo => l.setInterface {l.interface with
      fifoQueue := (l.interface.fifoQueue.push (compareSocket l.sockets) s).1}

/-- `rrsocketqueue_pop` or `fifosocketqueue_pop`. -/
def popSocket (l : Link) : Option (ℕ × Link) :=
  match l.interface.qdisc with
  | .roundRobin =>
    match l.interface.rrQueue with
    | [] => none
    | s::rest => some (s,l.setInterface {l.interface with rrQueue := rest})
  | .fifo =>
    match l.interface.fifoQueue.pop (compareSocket l.sockets) with
    | (_,none) => none
    | (q,some s) => some (s,l.setInterface {l.interface with fifoQueue := q})

def ref (l : Link) (s : ℕ) : Link :=
  l.setInterface {l.interface with references := l.interface.references++[s]}

def unref (l : Link) (s : ℕ) : Link :=
  l.setInterface {l.interface with references := l.interface.references.erase s}

/-- A socket that was popped gives its next packet, and waits again if it has more. -/
def pullOutPacket (l : Link) (s : ℕ) : Option Packet × Link :=
  let r := (l.sockets s).removeFromOutputBuffer
  let l := match r with
    | none => l
    | some (_,sock) => l.setSocket s sock
  (r.map Prod.fst,if l.hasPacket s then l.pushSocket s else l.unref s)

/-- `_networkinterface_selectRoundRobin` or `_networkinterface_selectFirstInFirstOut`, which differ in
the queue; the first argument bounds the number of sockets in it. -/
def selectPacket : ℕ → Link → Option (ℕ × Packet) × Link
  | 0,l => (none,l)
  | n+1,l =>
    match l.popSocket with
    | none => (none,l)
    | some (s,l) =>
      match l.pullOutPacket s with
      | (some p,l) => (some (s,p),l)
      | (none,l) => selectPacket n l

/-- A packet that was selected goes to the interface itself or to the router, and is paid for. The
link before the selection tells who was waiting. -/
def sendPacket (c : Clock) (before l : Link) (s : ℕ) (p : Packet) : Link :=
  let charged := !c.isBootstrapActive
  let i := {l.interface with
    aborted := l.interface.aborted || (l.interface.address ≠ p.destinationIP && l.interface.router.isNone)
    log := l.interface.log++[.sent s p l.interface.sendBucket.bytesRemaining charged
      before.interface.waiting (before.interface.waiting.all before.hasPacket)]}
  l.setInterface (if charged then
    {i with sendBucket := i.sendBucket.consume p.length}.scheduleNextRefillIfNeeded c else i)

/-- The loop of `_networkinterface_sendPackets`; the first argument bounds the number of packets. -/
def sendLoop (c : Clock) : ℕ → Link → Link
  | 0,l => l
  | n+1,l =>
    if mtu ≤ l.interface.sendBucket.bytesRemaining then
      match l.selectPacket l.interface.waiting.length with
      | (none,l') => l'
      | (some (s,p),l') => sendLoop c n (sendPacket c l l' s p)
    else l

/-- The packets of the sockets that wait. -/
def packetCount (l : Link) : ℕ :=
  (l.interface.waiting.map fun s ↦ (l.sockets s).packets.length).sum

def sendPackets (l : Link) (c : Clock) : Link := sendLoop c (l.packetCount+1) l

def wantsSend (l : Link) (c : Clock) (s : ℕ) : Link :=
  if l.hasPacket s then
    let l := if l.interface.findSocket s then l else (l.ref s).pushSocket s
    l.sendPackets c
  else l

/-- `socket_addToOutputBuffer` for a packet of this interface. -/
def addToOutputBuffer (l : Link) (c : Clock) (s : ℕ) (p : Packet) : Link :=
  match (l.sockets s).addToOutputBuffer p with
  | none => l
  | some sock => (l.setSocket s sock).wantsSend c s

end Link

/-- What the sockets of a host do to an interface: they add packets, ask it to send, or change their
buffers in other ways. -/
inductive Action
  | add (socket : ℕ) (packet : Packet)
  | wantsSend (socket : ℕ)
  | alter (sockets : ℕ → Sock)

namespace Link

def act (c : Clock) (l : Link) : Action → Link
  | .add s p => l.addToOutputBuffer c s p
  | .wantsSend s => l.wantsSend c s
  | .alter sockets => {l with sockets := sockets}

def react (c : Clock) (l : Link) (actions : List Action) : Link := actions.foldl (act c) l

/-- A packet is handed to its socket, which reacts, and is paid for. -/
def receivePacket (c : Clock) (l : Link) (p : Packet) (actions : List Action) : Link :=
  let charged := !c.isBootstrapActive
  let l := l.react c actions
  let i := {l.interface with
    log := l.interface.log++[.received p l.interface.receiveBucket.bytesRemaining charged]}
  l.setInterface (if charged then
    {i with receiveBucket := i.receiveBucket.consume p.length}.scheduleNextRefillIfNeeded c else i)

/-- The loop of `networkinterface_receivePackets`; the first argument bounds the number of packets,
and the second one is what the sockets do with each of them. -/
def receiveLoop (c : Clock) : ℕ → List (List Action) → Link → Link
  | 0,_,l => l
  | n+1,reactions,l =>
    match l.interface.router with
    | none => l
    | some q =>
      if c.isBootstrapActive || mtu ≤ l.interface.receiveBucket.bytesRemaining then
        let l := l.setInterface {l.interface with router := some (q.dequeue c.now).2}
        match (q.dequeue c.now).1 with
        | none => l
        | some p =>
          receiveLoop c n reactions.tail (receivePacket c l p (reactions.headD []))
      else l

def receivePackets (l : Link) (c : Clock) (reactions : List (List Action)) : Link :=
  receiveLoop c ((l.interface.router.elim 0 RouterQueue.size)+1) reactions l

/-- The buckets after a refill. -/
def refillBuckets (l : Link) : Link :=
  l.setInterface {l.interface with
    isRefillPending := false
    receiveBucket := l.interface.receiveBucket.refill
    sendBucket := l.interface.sendBucket.refill
    log := l.interface.log++[.refill]}

def refillTokenBucketsCB (l : Link) (c : Clock) (reactions : List (List Action)) : Link :=
  let l := (l.refillBuckets.receivePackets c reactions).sendPackets c
  l.setInterface (l.interface.scheduleNextRefillIfNeeded c)

def startRefillingTokenBuckets (l : Link) (c : Clock) (reactions : List (List Action)) : Link :=
  (l.setInterface {l.interface with timeStartedRefillingBuckets := c.now}).refillTokenBucketsCB c
    reactions

/-- `router_enqueue`: a packet comes from the network. -/
def routerEnqueue (l : Link) (c : Clock) (p : Packet) (reactions : List (List Action)) : Link :=
  match l.interface.router with
  | none => l
  | some q =>
    let (wasQueued,q') := q.enqueue c.now p
    let l := l.setInterface {l.interface with router := some q'}
    if q.peek=none && wasQueued then l.receivePackets c reactions else l

end Link

end Transmit
end Phantom
