import Phantom.Tcp.Output

/-! Incoming packets of `tcp.c`: data, acknowledgments, the state machine and the timers. -/
namespace Phantom
namespace Tcp

namespace Cong

def halve (c : Cong) : Cong := {c with ssthresh := c.cwnd/2+1}

/-- The loop of congestion avoidance; each turn uses up at least one acknowledged packet. -/
def avoidLoop : ℕ → Cong → Cong
  | 0,c => c
  | n+1,c =>
    if c.cwnd ≤ c.congAvoidNacked then
      avoidLoop n {c with congAvoidNacked := c.congAvoidNacked-c.cwnd, cwnd := c.cwnd+1}
    else c

def avoidNewAck (c : Cong) (n : ℕ) : Cong :=
  avoidLoop (c.congAvoidNacked+n) {c with congAvoidNacked := c.congAvoidNacked+n}

def transitionToCongAvoid (c : Cong) (n : ℕ) : Cong :=
  avoidNewAck {c with congAvoidNacked := 0, state := .congAvoid} n

def newAckEv (c : Cong) (n : ℕ) : Cong :=
  match c.state with
  | .slowStart =>
    let c := {c with duplicateAckN := 0}
    if c.ssthresh ≤ c.cwnd+n then
      transitionToCongAvoid {c with cwnd := c.ssthresh} (c.cwnd+n-c.ssthresh)
    else {c with cwnd := c.cwnd+n}
  | .fastRecovery => transitionToCongAvoid {c with duplicateAckN := 0, cwnd := c.ssthresh} n
  | .congAvoid => c.avoidNewAck n

def duplicateAckEv (c : Cong) : Cong :=
  if c.state=.fastRecovery then {c with cwnd := c.cwnd+1}
  else
    let c := {c with duplicateAckN := c.duplicateAckN+1}
    if c.duplicateAckN=3 then
      let c := c.halve
      {c with cwnd := c.ssthresh+3, state := .fastRecovery}
    else c

def timeoutEv (c : Cong) : Cong := {c.halve with duplicateAckN := 0, cwnd := 10, state := .slowStart}

end Cong

namespace Endpoint

def rmemMax : ℕ := 6291456

def wmemMax : ℕ := 4194304

def tuneInitialBufferSizes (t : Endpoint) : Endpoint :=
  let t := {t with autotune := {t.autotune with didInitializeBufferSizes := true}}
  if t.env.sameInterface then
    let t := if t.autotune.userDisabledReceive then t
      else {t with socket := t.socket.setInputBufferSize rmemMax}
    if t.autotune.userDisabledSend then t else {t with socket := t.socket.setOutputBufferSize wmemMax}
  else
    let t := if !t.autotune.userDisabledReceive && t.env.autotuneReceive then
        {t with socket := t.socket.setInputBufferSize t.env.receiveBufSize} else t
    if !t.autotune.userDisabledSend && t.env.autotuneSend then
      {t with socket :=
        {t.socket with outputBufferSize := t.env.sendBufSize}.setOutputBufferSize t.env.sendBufSize}
    else t

def autotuneSendBuffer (t : Endpoint) : Endpoint :=
  if t.autotune.isEnabled && !t.autotune.userDisabledSend && t.env.autotuneSend then
    let newSize := min (2404*2*t.cong.cwnd) (t.env.maxWMEM t.rttSmoothed)
    if t.socket.getOutputBufferSize<newSize then
      {t with socket := t.socket.setOutputBufferSize newSize}
    else t
  else t

def updateRTTEstimate (t : Endpoint) (timestamp : ℕ) : Endpoint :=
  let rtt := max 1 ((t.now-timestamp)/oneMillisecond)
  let t := if t.rttSmoothed=0 then
      let t := {t with rttSmoothed := rtt, rttVariance := rtt/2}
      if t.autotune.isEnabled && !t.autotune.didInitializeBufferSizes then t.tuneInitialBufferSizes
      else t
    else {t with
      rttVariance := 3*t.rttVariance/4+((t.rttSmoothed : ℤ)-rtt).natAbs/4
      rttSmoothed := 7*t.rttSmoothed/8+rtt/8}
  t.setRetransmitTimeout (t.rttSmoothed+4*t.rttVariance)

def bufferPacketIn (t : Endpoint) (p : Packet) : Endpoint :=
  if t.unorderedInput.heap.any fun q ↦ q.id=p.id then t
  else {t with
    unorderedInput := t.unorderedInput.pushNew compareTCPSequence p
    unorderedInputLength := t.unorderedInputLength+p.payloadLength}

/-- The last entry before the first gap that lies behind the packet. The gap is looked for among
signed numbers, and the packet is compared unsigned. -/
def lastSackBeforeGap (sequence : ℕ) : ℕ → List ℕ → ℕ
  | curr,[] => curr
  | curr,next::rest =>
    if gint (curr+1)<gint next ∧ sequence<curr then curr else lastSackBeforeGap sequence next rest

/-- Only the entries above the number stay. -/
def removeSacks (sacks : List ℕ) (sequence : ℕ) : List ℕ :=
  sacks.filter fun s ↦ gint sequence<gint s

/-- The selective acknowledgments after a data packet. -/
def updateSacks (sacks : List ℕ) (sequence : ℕ) (isNextPacket packetFits : Bool) : List ℕ :=
  if !isNextPacket && packetFits then sacks++[sequence]
  else match sacks with
    | [] => []
    | first::rest =>
      if first ≤ u32 (sequence+1) then
        removeSacks (first::rest) (lastSackBeforeGap sequence first rest)
      else first::rest

/-- The flags that matter of `_tcp_dataProcessing`: the packet was processed, and its data was
received. -/
structure Processed where
  processed : Bool
  dataReceived : Bool

def dataProcessing (t : Endpoint) (p : Packet) : Endpoint × Processed :=
  if u32 (t.receive.next+t.receive.window) ≤ p.sequence then (t,⟨true,false⟩)
  else if t.receive.next ≤ p.sequence then
    let isNextPacket := p.sequence=t.receive.next
    let packetFits := p.payloadLength ≤ t.getBufferSpaceIn
    let t := {t with send := {t.send with
      selectiveACKs := updateSacks t.send.selectiveACKs p.sequence isNextPacket packetFits}}
    if (isNextPacket && !t.status.readable) || packetFits then (t.bufferPacketIn p,⟨true,true⟩)
    else (t,⟨true,false⟩)
  else (t,⟨false,false⟩)

def isValidAck (t : Endpoint) (p : Packet) : Bool :=
  t.send.unacked<p.acknowledgment && p.acknowledgment ≤ t.send.next

def isValidWindow (t : Endpoint) (p : Packet) : Bool :=
  (p.acknowledgment=t.receive.lastAcknowledgment && t.receive.lastWindow<p.window) ||
    (t.receive.lastAcknowledgment<p.acknowledgment && p.window ≠ t.receive.lastWindow)

/-- The acknowledgment moves the window of outstanding packets. -/
def acceptAck (t : Endpoint) (ack : ℕ) : Endpoint :=
  let t := t.clearRetransmitRange t.receive.lastAcknowledgment ack
  let n := ack-t.send.unacked
  let t := {t with
    receive := {t.receive with lastAcknowledgment := ack}
    send := {t.send with unacked := ack}
    cong := t.cong.newAckEv n}
  let t := t.autotuneSendBuffer
  let t := if 2<t.retransmit.backoffCount then
      setRetransmitTimeout {t with rttSmoothed := 0, rttVariance := 0} rtoInit else t
  {t with retransmit := {t.retransmit with backoffCount := 0}}

def ackProcessing (t : Endpoint) (p : Packet) : Endpoint :=
  let validAck := t.isValidAck p
  let validWindow := t.isValidWindow p
  let t := t.setTally (t.retransmit.tally.update (u32 p.acknowledgment) p.flags.dupack)
  let t := {t with cong := if p.flags.dupack then t.cong.duplicateAckEv else t.cong}
  let t := if validAck then t.acceptAck p.acknowledgment else t
  let t := if validWindow then {t with receive := {t.receive with lastWindow := p.window}} else t
  if t.retransmit.queueLength=0 then t.stopRetransmitTimer
  else if validAck then t.setRetransmitTimer
  else t

/-- `_tcp_setState` for a socket that is neither a server nor a child. -/
def setState (t : Endpoint) (s : State) : Endpoint :=
  let t := {t with state := s}
  match s with
  | .listen => t.setActive true
  | .established => setWritable (setActive
      {t with flags := {t.flags with wasEstablished := true}} true) true
  | .closed => {(t.clearRetransmit (2^32-1)).setActive false with deregistered := true}
  | .timeWait => {t with closeTasks := t.closeTasks+1}
  | _ => t

/-- What the switch over the states does: the socket after it, whether it processed the packet,
its response, and whether the processing ends here. -/
structure Switched where
  socket : Endpoint
  processed : Bool
  response : PacketFlags
  done : Bool

def startReceive (t : Endpoint) (p : Packet) : Endpoint :=
  {t with receive := {t.receive with start := p.sequence, next := u32 (p.sequence+1)}}

/-- The peer sends no more data after the given sequence number. -/
def remoteClose (t : Endpoint) (last : ℕ) : Endpoint :=
  {t with
    flags := {t.flags with remoteClosed := true}
    receive := {t.receive with last := last}}

/-- The switch of `_tcp_processPacket`. The listening state is that of a server, which the server
module handles. -/
def switchState (t : Endpoint) (p : Packet) : Switched :=
  match t.state with
  | .listen => ⟨t,false,.none,true⟩
  | .synSent =>
    if p.flags.syn && p.flags.ack then
      ⟨((t.startReceive p).setState .established).clearRetransmit 1,true,.ack',false⟩
    else if p.flags.syn then ⟨(t.startReceive p).setState .synReceived,true,.ack',false⟩
    else ⟨t,false,.none,false⟩
  | .synReceived =>
    if p.flags.ack then ⟨(t.setState .established).clearRetransmit 1,true,.none,false⟩
    else ⟨t,false,.none,false⟩
  | .established =>
    if p.flags.fin then ⟨(t.setState .closeWait).remoteClose p.sequence,true,.finAck,false⟩
    else ⟨t,false,.none,false⟩
  | .finWait1 =>
    if p.flags.fin && p.flags.ack then ⟨t.setState .finWait2,true,.none,false⟩
    else if p.flags.fin then ⟨(t.setState .closing).remoteClose p.sequence,true,.finAck,false⟩
    else ⟨t,false,.none,false⟩
  | .finWait2 =>
    if p.flags.fin then ⟨(t.setState .timeWait).remoteClose p.sequence,true,.finAck,false⟩
    else ⟨t,false,.none,false⟩
  | .closing =>
    if p.flags.fin && p.flags.ack then ⟨t.setState .timeWait,true,.none,false⟩
    else ⟨t,false,.none,false⟩
  | .timeWait => ⟨t,false,.none,false⟩
  | .closeWait => ⟨t,false,.none,false⟩
  | .lastAck =>
    if p.flags.fin && p.flags.ack then ⟨t.setState .closed,true,.none,true⟩
    else ⟨t,false,.none,false⟩
  | .closed => ⟨t,false,.none,true⟩

def processReset (t : Endpoint) : Endpoint :=
  if !t.state.hasListenBit && !t.error.connectionReset then
    let t := setState
      {t with
        error := {t.error with connectionReset := true}
        flags := {t.flags with remoteClosed := true}} .timeWait
    {t with receive := {t.receive with last := t.receive.next}}
  else t

/-- The response of the switch with the acknowledgment that the data calls for. -/
def completeResponse (t : Endpoint) (p : Packet) (response : PacketFlags) (dataReceived : Bool) :
    PacketFlags :=
  if t.receive.next<p.sequence && p.sequence<u32 (t.receive.next+t.receive.window) then
    response.union {PacketFlags.none with ack := true, dupack := true}
  else if dataReceived then response.union .ack'
  else response

/-- A bare acknowledgment is delayed, any other response leaves now. -/
def respond (t : Endpoint) (response : PacketFlags) : Endpoint :=
  if response ≠ .none ∧ (t.error.receiveEof=false ∨ response.fin=true) then
    if response=.ack' then
      {t with
        ackTasks := if t.send.delayedACKIsScheduled then t.ackTasks else t.ackTasks+1
        send := {t.send with
          delayedACKIsScheduled := true
          delayedACKCounter := t.send.delayedACKCounter+1}}
    else t.sendControlPacket response
  else t

/-- The bookkeeping of a processed packet, its response and the flush. -/
def finishPacket (t : Endpoint) (p : Packet) (response : PacketFlags) (dataReceived : Bool) :
    Endpoint :=
  let t := if p.selectiveACKs.isEmpty then t
    else t.setTally (t.retransmit.tally.retransmitTallyMarkSacked (p.selectiveACKs.map u32))
  let t := {t with receive := {t.receive with lastTimestamp := p.timestampValue}}
  let t := if p.timestampEcho ≠ 0 ∧ t.retransmit.backoffCount=0 then
      t.updateRTTEstimate p.timestampEcho else t
  let t := (t.respond (t.completeResponse p response dataReceived)).flush
  {t with receive := {t.receive with lastTimestamp := 0}}

/-- The packet after the switch: its data, its acknowledgment and the answer to it. -/
def processSwitched (s : Switched) (p : Packet) : Endpoint :=
  let (t,data) := if 0<p.payloadLength && !s.socket.error.receiveEof then
      s.socket.dataProcessing p else (s.socket,⟨false,false⟩)
  let t := if p.flags.ack then t.ackProcessing p else t
  if s.processed || data.processed || p.flags.ack then
    t.finishPacket p s.response data.dataReceived
  else t

def processPacket (t : Endpoint) (p : Packet) : Endpoint :=
  if p.flags.rst then t.processReset
  else
    let s := t.switchState p
    if s.done then s.socket else processSwitched s p

def sendACKTaskCallback (t : Endpoint) : Endpoint :=
  let t := {t with
    ackTasks := t.ackTasks-1
    send := {t.send with delayedACKIsScheduled := false}}
  if 0<t.send.delayedACKCounter then
    let t := t.sendControlPacket .ack'
    {t with send := {t.send with delayedACKCounter := 0}}
  else t

/-- A timeout is valid: everything outstanding counts as lost. -/
def retransmitTimeout (t : Endpoint) : Endpoint :=
  let t := {t with retransmit := {t.retransmit with backoffCount := t.retransmit.backoffCount+1}}
  let t := (t.setRetransmitTimeout (t.retransmit.timeout*2)).setRetransmitTimer
  let t := {t with
    cong := t.cong.timeoutEv
    retransmit := {t.retransmit with tally := t.retransmit.tally.clearRetransmitted}}
  let t := t.setTally (t.retransmit.tally.markLost (u32 t.receive.lastAcknowledgment)
    (u32 (t.send.highestSequence+1)))
  t.flush

def runRetransmitTimerExpiredTask (t : Endpoint) : Endpoint :=
  let t := {t with retransmit := {t.retransmit with
    scheduledTimerExpirations := (t.retransmit.scheduledTimerExpirations.pop compare).1}}
  if t.state=.closed then t.stopRetransmitTimer.clearRetransmit (2^32-1)
  else if t.retransmit.queue.isEmpty then t.stopRetransmitTimer
  else if t.retransmit.desiredTimerExpiration=0 then t
  else if t.now<t.retransmit.desiredTimerExpiration then t.scheduleRetransmitTimerIfNeeded
  else t.retransmitTimeout

def runCloseTimerExpiredTask (t : Endpoint) : Endpoint :=
  setState {t with closeTasks := t.closeTasks-1} .closed

end Endpoint
end Tcp
end Phantom
