import Phantom.Tcp.Endpoint

/-! Outgoing packets of `tcp.c`: the throttled output, the output buffer of the socket, the
retransmit queue and its timer. -/
namespace Phantom
namespace Tcp

namespace Socket

def getInputBufferSize (s : Socket) : ℕ :=
  if 0<s.inputBufferSizePending then s.inputBufferSizePending else s.inputBufferSize

def getOutputBufferSize (s : Socket) : ℕ :=
  if 0<s.outputBufferSizePending then s.outputBufferSizePending else s.outputBufferSize

def getInputBufferSpace (s : Socket) : ℕ := s.getInputBufferSize-s.inputBufferLength

def getOutputBufferSpace (s : Socket) : ℕ := s.getOutputBufferSize-s.outputBufferLength

def setInputBufferSize (s : Socket) (newSize : ℕ) : Socket :=
  if s.inputBufferLength ≤ newSize then
    {s with inputBufferSize := newSize, inputBufferSizePending := 0}
  else {s with inputBufferSize := s.inputBufferLength, inputBufferSizePending := newSize}

def setOutputBufferSize (s : Socket) (newSize : ℕ) : Socket :=
  if s.outputBufferLength ≤ newSize then
    {s with outputBufferSize := newSize, outputBufferSizePending := 0}
  else {s with outputBufferSize := s.outputBufferLength, outputBufferSizePending := newSize}

/-- The next packet of the output, control packets first, with the buffers without it. -/
def popOutput (s : Socket) : Option (Packet × Socket) :=
  match s.outputControlBuffer,s.outputBuffer with
  | p::ps,_ => some (p,{s with outputControlBuffer := ps})
  | [],p::ps => some (p,{s with outputBuffer := ps})
  | [],[] => none

end Socket

namespace Endpoint

def setReadable (t : Endpoint) (b : Bool) : Endpoint := {t with status := {t.status with readable := b}}

def setWritable (t : Endpoint) (b : Bool) : Endpoint := {t with status := {t.status with writable := b}}

def setActive (t : Endpoint) (b : Bool) : Endpoint := {t with status := {t.status with active := b}}

def setClosed (t : Endpoint) (b : Bool) : Endpoint := {t with status := {t.status with closed := b}}

/-- A failed assertion. -/
def assert (t : Endpoint) (b : Bool) : Endpoint := {t with aborted := t.aborted || !b}

def getOutputBufferLength (t : Endpoint) : ℕ := t.throttledOutputLength+t.retransmit.queueLength

def getBufferSpaceOut (t : Endpoint) : ℕ := t.socket.getOutputBufferSpace-t.getOutputBufferLength

def getBufferSpaceIn (t : Endpoint) : ℕ := t.socket.getInputBufferSpace-t.unorderedInputLength

def writableIfSpace (t : Endpoint) : Endpoint :=
  if 0<t.getBufferSpaceOut then t.setWritable true else t

def unwritableIfFull (t : Endpoint) : Endpoint :=
  if t.getBufferSpaceOut=0 then t.setWritable false else t

def bufferPacketOut (t : Endpoint) (p : Packet) : Endpoint :=
  if t.throttledOutput.heap.any fun q ↦ q.id=p.id then t
  else unwritableIfFull
    {t with
      throttledOutput := t.throttledOutput.pushNew compareTCPSequence p
      throttledOutputLength := t.throttledOutputLength+p.payloadLength}

def updateReceiveWindow (t : Endpoint) : Endpoint :=
  let window := t.socket.getInputBufferSpace/maxPacketLength
  assert {t with receive := {t.receive with window := window}}
    (0<window || t.socket.inputBufferLength ≠ 0)

def updateSendWindow (t : Endpoint) : Endpoint :=
  {t with send := {t.send with window := min t.cong.cwnd t.receive.lastWindow}}

/-- A new packet, which takes a sequence number when it has a payload or is a bare FIN. -/
def createPacket (t : Endpoint) (flags : PacketFlags) (payload : List UInt8) : Packet × Endpoint :=
  let t := t.updateReceiveWindow
  let isFinNotAck := flags.fin && !flags.ack
  let sequence := if !payload.isEmpty || isFinNotAck then t.send.next else 0
  (⟨t.nextPacketID,flags,sequence,0,0,[],0,0,payload⟩,
    {t with
      nextPacketID := t.nextPacketID+1
      send := {t.send with next := if 0<sequence then u32 (t.send.next+1) else t.send.next}})

/-- A call of the retransmit tally. -/
def setTally (t : Endpoint) (tally? : Option Tally) : Endpoint :=
  assert {t with retransmit := {t.retransmit with tally := tally?.getD t.retransmit.tally}}
    tally?.isSome

/-- The packet under a key of the retransmit queue. The keys are sequence numbers. -/
def lookupRetransmit (t : Endpoint) (key : ℕ) : Option Packet :=
  t.retransmit.queue.find? fun p ↦ p.sequence=key

def addRetransmit (t : Endpoint) (p : Packet) : Endpoint :=
  match t.lookupRetransmit p.sequence with
  | some _ => t
  | none => unwritableIfFull
    {t with retransmit := {t.retransmit with
      queue := t.retransmit.queue++[p]
      queueLength := t.retransmit.queueLength+p.payloadLength}}

def payloadSum (ps : List Packet) : ℕ := (ps.map Packet.payloadLength).sum

/-- The retransmit queue without the packets of a predicate on their keys. -/
def dropRetransmit (t : Endpoint) (acked : ℕ → Bool) : Endpoint :=
  {t with retransmit := {t.retransmit with
    queue := t.retransmit.queue.filter fun p ↦ !acked p.sequence
    queueLength := t.retransmit.queueLength-
      payloadSum (t.retransmit.queue.filter fun p ↦ acked p.sequence)}}

def clearRetransmit (t : Endpoint) (sequence : ℕ) : Endpoint :=
  (t.dropRetransmit fun s ↦ s<sequence).writableIfSpace

def clearRetransmitRange (t : Endpoint) (first last : ℕ) : Endpoint :=
  (t.dropRetransmit fun s ↦ first ≤ s && s<last).writableIfSpace

def scheduleRetransmitTimerIfNeeded (t : Endpoint) : Endpoint :=
  match t.retransmit.scheduledTimerExpirations.peek with
  | some next =>
    if next ≤ t.retransmit.desiredTimerExpiration then t
    else {t with retransmit := {t.retransmit with
      scheduledTimerExpirations := t.retransmit.scheduledTimerExpirations.pushNew compare
        t.retransmit.desiredTimerExpiration}}
  | none => {t with retransmit := {t.retransmit with
      scheduledTimerExpirations := t.retransmit.scheduledTimerExpirations.pushNew compare
        t.retransmit.desiredTimerExpiration}}

def setRetransmitTimer (t : Endpoint) : Endpoint :=
  scheduleRetransmitTimerIfNeeded {t with retransmit := {t.retransmit with
    desiredTimerExpiration := t.now+t.retransmit.timeout*oneMillisecond}}

def stopRetransmitTimer (t : Endpoint) : Endpoint :=
  {t with retransmit := {t.retransmit with desiredTimerExpiration := 0}}

def setRetransmitTimeout (t : Endpoint) (newTimeout : ℕ) : Endpoint :=
  {t with retransmit := {t.retransmit with timeout := max (min newTimeout rtoMax) rtoMin}}

/-- The header of a packet that leaves, with the present acknowledgment, window and times. -/
def updateTCP (t : Endpoint) (p : Packet) : Packet :=
  let p := if t.send.selectiveACKs.isEmpty then p
    else {p with flags := {p.flags with sack := true}, selectiveACKs := t.send.selectiveACKs}
  {p with
    acknowledgment := t.receive.next
    window := t.receive.window
    timestampValue := t.now
    timestampEcho := t.receive.lastTimestamp}

/-- A packet is stored until it is acknowledged, and the timer is started unless it runs. -/
def storeSent (t : Endpoint) (p : Packet) : Endpoint :=
  if 0<p.sequence || p.flags.syn then
    let t := t.addRetransmit p
    if t.retransmit.desiredTimerExpiration=0 then t.setRetransmitTimer else t
  else t

def networkInterfaceIsAboutToSendPacket (t : Endpoint) (p : Packet) : Endpoint :=
  let p := t.updateTCP p
  let t := {t with send := {t.send with
    lastAcknowledgment := t.receive.next
    lastWindow := t.receive.window
    delayedACKCounter := if p.flags.ack then 0 else t.send.delayedACKCounter}}
  {t.storeSent p with sent := t.sent++[p]}

/-- The effect of `socket_removeFromOutputBuffer` besides the packet. -/
def removedFromOutputBuffer (t : Endpoint) (s : Socket) (p : Packet) : Endpoint :=
  let s := {s with outputBufferLength := s.outputBufferLength-p.payloadLength}
  let s := if 0<s.outputBufferSizePending then s.setOutputBufferSize s.outputBufferSizePending else s
  writableIfSpace {t with socket := s}

/-- The interface takes the next packet and sends it. -/
def pullOutPacket (t : Endpoint) : Endpoint :=
  match t.socket.popOutput with
  | none => t
  | some (p,s) => (t.removedFromOutputBuffer s p).networkInterfaceIsAboutToSendPacket p

def pullOutPackets (t : Endpoint) : ℕ → Endpoint
  | 0 => t
  | n+1 => t.pullOutPacket.pullOutPackets n

/-- The packet goes to the buffer of its priority, and the interface takes what it can send. -/
def addToOutputBuffer (t : Endpoint) (p : Packet) : Endpoint :=
  if t.socket.getOutputBufferSpace<p.payloadLength then t.assert false
  else
    let s := if p.payload.isEmpty then
        {t.socket with outputControlBuffer := t.socket.outputControlBuffer++[p]}
      else {t.socket with outputBuffer := t.socket.outputBuffer++[p]}
    let t := unwritableIfFull
      {t with socket := {s with outputBufferLength := s.outputBufferLength+p.payloadLength}}
    pullOutPackets {t with takes := t.takes.tail} (t.takes.headD 0)

/-- The key that `_tcp_retransmitPacket` makes of a number of 32 bits: its argument is a `gint`, so
from 2^31 on the sign fills the pointer. -/
def gintKey (sequence : ℕ) : ℕ := if sequence<2^31 then sequence else sequence+(2^64-2^32)

/-- The packet under a key, if there is one, goes back to the throttled output. -/
def retransmitKey (t : Endpoint) (key : ℕ) : Endpoint :=
  match t.lookupRetransmit key with
  | none => t
  | some p =>
    let t := (t.dropRetransmit fun s ↦ s=key).writableIfSpace
    t.setRetransmitTimer.bufferPacketOut p

def retransmitPacket (t : Endpoint) (sequence : ℕ) : Endpoint := t.retransmitKey (gintKey sequence)

/-- The packets of one lost range, in order. -/
def retransmitRange (t : Endpoint) (r : SeqRange) : Endpoint :=
  let t := (List.range' r.1.toNat (r.2.toNat-r.1.toNat)).foldl retransmitPacket t
  t.setTally (t.retransmit.tally.markRetransmitted r.1.toNat r.2.toNat)

def retransmitLost (t : Endpoint) : Endpoint := t.retransmit.tally.lost.foldl retransmitRange t

/-- A data packet is held back by the window or by the space in the socket. -/
def isThrottled (t : Endpoint) (p : Packet) : Bool :=
  0<p.payloadLength && !(p.sequence<u32 (t.send.unacked+t.send.window) &&
    p.payloadLength ≤ t.socket.getOutputBufferSpace)

/-- A packet that the flush has taken out of the throttled output. -/
def sendThrottled (t : Endpoint) (p : Packet) : Endpoint :=
  let t := addToOutputBuffer
    {t with
      throttledOutput := (t.throttledOutput.pop compareTCPSequence).1
      throttledOutputLength := t.throttledOutputLength-p.payloadLength} p
  {t with send := {t.send with
    packetsSent := t.send.packetsSent+1
    highestSequence := max t.send.highestSequence p.sequence}}

/-- The loop over the throttled output; the first argument bounds the number of its packets. -/
def flushThrottled : ℕ → Endpoint → Endpoint
  | 0,t => t
  | n+1,t =>
    match t.throttledOutput.peek with
    | none => t
    | some p => if t.isThrottled p then t else flushThrottled n (t.sendThrottled p)

def addToInputBuffer (t : Endpoint) (p : Packet) : Option Endpoint :=
  if t.socket.getInputBufferSpace<p.payloadLength then none
  else
    let length := t.socket.inputBufferLength+p.payloadLength
    let t := {t with socket := {t.socket with
      inputBuffer := t.socket.inputBuffer++[p]
      inputBufferLength := length}}
    some (if 0<length then t.setReadable true else t)

/-- The loop over the unordered input; the first argument bounds the number of its packets. -/
def flushUnordered : ℕ → Endpoint → Endpoint
  | 0,t => t
  | n+1,t =>
    match t.unorderedInput.peek with
    | none => t
    | some p =>
      if p.sequence=t.receive.next then
        match t.addToInputBuffer p with
        | none => t
        | some t => flushUnordered n
          {t with
            unorderedInput := (t.unorderedInput.pop compareTCPSequence).1
            unorderedInputLength := t.unorderedInputLength-p.payloadLength
            receive := {t.receive with lastSequence := p.sequence, next := u32 (t.receive.next+1)}}
      else t

/-- The end of a flush: the end-of-file errors and whether the user can write. -/
def flushSignals (t : Endpoint) : Endpoint :=
  let t := if t.flags.localClosedWr || t.error.connectionReset then
    {t with error := {t.error with sendEof := true}} else t
  let t := if (t.flags.localClosedRd || t.flags.remoteClosed || t.error.connectionReset) &&
      t.receive.last ≤ t.receive.next && !t.flags.eofRdSignaled then
    setReadable {t with error := {t.error with receiveEof := true}} true else t
  t.setWritable (!((t.error.connectionReset && t.flags.resetSignaled) ||
    (t.error.sendEof && t.flags.eofWrSignaled) || t.getBufferSpaceOut=0))

/-- The part of a flush before it may send a FIN. -/
def flushQueues (t : Endpoint) : Endpoint :=
  let t := t.updateReceiveWindow.updateSendWindow.retransmitLost
  let t := flushThrottled t.throttledOutput.heap.length t
  flushUnordered t.unorderedInput.heap.length t

/-- The state in which a FIN is to be sent, if there is one. -/
def finState : State → Option State
  | .established => some .finWait1
  | .synReceived => some .finWait1
  | .closeWait => some .lastAck
  | _ => none

/-- A flush and the FIN that it may send, which is flushed in turn. The inner flush finds the FIN
flag still set, and a state that sends no other FIN; the first argument bounds this nesting. -/
def flushDepth : ℕ → Endpoint → Endpoint
  | 0,t => t
  | n+1,t =>
    let t := t.flushQueues
    let t := if t.flags.shouldSendWrFin && t.getOutputBufferLength=0 then
        let t := match finState t.state with
          | none => t
          | some s =>
            let (p,t) := createPacket {t with state := s} .fin' []
            flushDepth n (t.bufferPacketOut p)
        {t with flags := {t.flags with shouldSendWrFin := false}}
      else t
    t.flushSignals

def flush (t : Endpoint) : Endpoint := flushDepth 2 t

def sendControlPacket (t : Endpoint) (flags : PacketFlags) : Endpoint :=
  let (p,t) := t.createPacket flags []
  (t.bufferPacketOut p).flush

def sendShutdownFin (t : Endpoint) : Endpoint :=
  match finState t.state with
  | none => t
  | some s =>
    let (p,t) := createPacket {t with state := s} .fin' []
    (t.bufferPacketOut p).flush

end Endpoint
end Tcp
end Phantom
