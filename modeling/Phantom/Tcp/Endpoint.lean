import Phantom.Utility.PriorityQueue
import Phantom.Tcp.RetransmitTally

/-! The state of a TCP socket of `tcp.c` with the buffers of the socket below it. -/
namespace Phantom
namespace Tcp

def mtu : ℕ := 1500

def headerSize : ℕ := 66

/-- The longest payload of a packet. -/
def maxPacketLength : ℕ := mtu-headerSize

def rtoInit : ℕ := 1000

def rtoMin : ℕ := 200

def rtoMax : ℕ := 120000

def oneMillisecond : ℕ := 1000000

inductive State
  | closed
  | listen
  | synSent
  | synReceived
  | established
  | finWait1
  | finWait2
  | closing
  | timeWait
  | closeWait
  | lastAck
  deriving DecidableEq, Repr

/-- The value of the state in its enumeration. -/
def State.toNat : State → ℕ
  | .closed => 0
  | .listen => 1
  | .synSent => 2
  | .synReceived => 3
  | .established => 4
  | .finWait1 => 5
  | .finWait2 => 6
  | .closing => 7
  | .timeWait => 8
  | .closeWait => 9
  | .lastAck => 10

/-- The test `state & TCPS_LISTEN`, which looks at the lowest bit of the state. -/
def State.hasListenBit (s : State) : Bool := s.toNat%2=1

structure PacketFlags where
  rst : Bool
  syn : Bool
  ack : Bool
  sack : Bool
  fin : Bool
  dupack : Bool
  deriving DecidableEq, Repr

namespace PacketFlags

def none : PacketFlags := ⟨false,false,false,false,false,false⟩

def syn' : PacketFlags := {none with syn := true}

def ack' : PacketFlags := {none with ack := true}

def fin' : PacketFlags := {none with fin := true}

def rst' : PacketFlags := {none with rst := true}

def synAck : PacketFlags := {none with syn := true, ack := true}

def finAck : PacketFlags := {none with fin := true, ack := true}

def union (a b : PacketFlags) : PacketFlags :=
  ⟨a.rst || b.rst,a.syn || b.syn,a.ack || b.ack,a.sack || b.sack,a.fin || b.fin,a.dupack || b.dupack⟩

end PacketFlags

/-- A packet; `id` is its identity as an object. A packet without payload has priority 0. -/
structure Packet where
  id : ℕ
  flags : PacketFlags
  sequence : ℕ
  acknowledgment : ℕ
  window : ℕ
  selectiveACKs : List ℕ
  timestampValue : ℕ
  timestampEcho : ℕ
  payload : List UInt8
  deriving DecidableEq

def Packet.payloadLength (p : Packet) : ℕ := p.payload.length

def compareTCPSequence (a b : Packet) : Ordering := compare a.sequence b.sequence

structure Flags where
  localClosedRd : Bool
  localClosedWr : Bool
  remoteClosed : Bool
  eofRdSignaled : Bool
  eofWrSignaled : Bool
  resetSignaled : Bool
  wasEstablished : Bool
  connectSignalNeeded : Bool
  shouldSendWrFin : Bool
  deriving DecidableEq

def Flags.none : Flags := ⟨false,false,false,false,false,false,false,false,false⟩

structure Error where
  connectionReset : Bool
  sendEof : Bool
  receiveEof : Bool
  deriving DecidableEq

def Error.none : Error := ⟨false,false,false⟩

/-- Sequence numbers of incoming packets. -/
structure Receive where
  start : ℕ
  next : ℕ
  window : ℕ
  last : ℕ
  lastTimestamp : ℕ
  lastWindow : ℕ
  lastAcknowledgment : ℕ
  lastSequence : ℕ
  windowUpdatePending : Bool

/-- Sequence numbers of outgoing packets. -/
structure Send where
  unacked : ℕ
  next : ℕ
  window : ℕ
  last : ℕ
  lastAcknowledgment : ℕ
  lastWindow : ℕ
  highestSequence : ℕ
  packetsSent : ℕ
  delayedACKIsScheduled : Bool
  delayedACKCounter : ℕ
  selectiveACKs : List ℕ

/-- The retransmit queue, keyed by sequence number, and its timer. A time of 0 means that the
timer is off. -/
structure Retransmit where
  queue : List Packet
  queueLength : ℕ
  timeout : ℕ
  scheduledTimerExpirations : PriorityQueue ℕ
  desiredTimerExpiration : ℕ
  backoffCount : ℕ
  tally : Tally

structure Autotune where
  isEnabled : Bool
  didInitializeBufferSizes : Bool
  userDisabledSend : Bool
  userDisabledReceive : Bool
  bytesCopied : ℕ
  lastAdjustment : ℕ
  space : ℕ

inductive RenoState
  | slowStart
  | fastRecovery
  | congAvoid
  deriving DecidableEq, Repr

/-- The congestion window and the state of Reno. -/
structure Cong where
  cwnd : ℕ
  state : RenoState
  duplicateAckN : ℕ
  congAvoidNacked : ℕ
  ssthresh : ℕ

/-- The buffers of the socket layer. -/
structure Socket where
  inputBuffer : List Packet
  inputBufferLength : ℕ
  inputBufferSize : ℕ
  inputBufferSizePending : ℕ
  outputBuffer : List Packet
  outputControlBuffer : List Packet
  outputBufferLength : ℕ
  outputBufferSize : ℕ
  outputBufferSizePending : ℕ

structure Status where
  active : Bool
  readable : Bool
  writable : Bool
  closed : Bool

/-- What the host and the topology decide: buffer sizes, and whether the peer is on the same
interface. -/
structure Env where
  sameInterface : Bool
  autotuneReceive : Bool
  autotuneSend : Bool
  receiveBufSize : ℕ
  sendBufSize : ℕ
  maxRMEM : ℕ → ℕ
  maxWMEM : ℕ → ℕ

/-- A socket. The last fields are its surroundings: the time, the tasks that it has scheduled,
the packets that the interface has taken from it, and how many packets the interface takes each
time that one is added to the output buffer. -/
structure Endpoint where
  state : State
  flags : Flags
  error : Error
  receive : Receive
  send : Send
  retransmit : Retransmit
  autotune : Autotune
  cong : Cong
  rttSmoothed : ℕ
  rttVariance : ℕ
  throttledOutput : PriorityQueue Packet
  throttledOutputLength : ℕ
  unorderedInput : PriorityQueue Packet
  unorderedInputLength : ℕ
  partialUserDataPacket : Option Packet
  partialOffset : ℕ
  socket : Socket
  status : Status
  env : Env
  now : ℕ
  nextPacketID : ℕ
  aborted : Bool
  closeTasks : ℕ
  ackTasks : ℕ
  windowUpdateTasks : ℕ
  deregistered : Bool
  sent : List Packet
  takes : List ℕ

/-- A socket before it is used. -/
def new (env : Env) (receiveBufferSize sendBufferSize : ℕ) : Endpoint where
  state := .closed
  flags := .none
  error := .none
  receive := ⟨1,1,10,1,0,10,1,0,false⟩
  send := ⟨1,1,10,1,1,10,0,0,false,0,[]⟩
  retransmit := ⟨[],0,rtoInit,.new,0,0,.init⟩
  autotune := ⟨true,false,false,false,0,0,0⟩
  cong := ⟨1,.slowStart,0,0,2147483647⟩
  rttSmoothed := 0
  rttVariance := 0
  throttledOutput := .new
  throttledOutputLength := 0
  unorderedInput := .new
  unorderedInputLength := 0
  partialUserDataPacket := none
  partialOffset := 0
  socket := ⟨[],0,receiveBufferSize,0,[],[],0,sendBufferSize,0⟩
  status := ⟨false,false,false,false⟩
  env := env
  now := 0
  nextPacketID := 0
  aborted := false
  closeTasks := 0
  ackTasks := 0
  windowUpdateTasks := 0
  deregistered := false
  sent := []
  takes := []

end Tcp
end Phantom
