import Phantom.Tcp.Process

/-! The calls of the user on a TCP socket: connect, send, receive, shutdown and close. -/
namespace Phantom
namespace Tcp

inductive Errno
  | enotconn
  | epipe
  | ewouldblock
  | econnreset
  | econnrefused
  | eisconn
  | ealready
  | einprogress
  deriving DecidableEq, Repr

namespace Endpoint

/-- `tcp_getConnectionError`; the result `none` is the positive one of a socket that has not sent a
SYN yet, and an errno or success is the other. -/
def getConnectionError (t : Endpoint) : Option (Except Errno Unit) × Endpoint :=
  if t.flags.wasEstablished then
    if t.error.connectionReset then
      (some (.error .econnreset),{t with flags := {t.flags with resetSignaled := true}})
    else if t.state=.closed ∧ (t.flags.localClosedRd ∨ t.flags.eofRdSignaled) ∧
        (t.flags.localClosedWr ∨ t.flags.eofWrSignaled) then
      (some (.error .enotconn),t)
    else if t.flags.connectSignalNeeded then
      (some (.ok ()),{t with flags := {t.flags with connectSignalNeeded := false}})
    else (some (.error .eisconn),t)
  else if t.error.connectionReset then
    (some (.error .econnrefused),{t with flags := {t.flags with resetSignaled := true}})
  else if t.state=.synSent ∨ t.state=.synReceived then (some (.error .ealready),t)
  else (none,t)

def connectToPeer (t : Endpoint) : Except Errno Unit × Endpoint :=
  match t.getConnectionError with
  | (some r,t) => (r,t)
  | (none,t) =>
    let t := (t.sendControlPacket .syn').setState .synSent
    (.error .einprogress,{t with flags := {t.flags with connectSignalNeeded := true}})

/-- The end of file has been signaled to the user. -/
def endOfFileSignalled (t : Endpoint) : Endpoint :=
  if t.flags.eofRdSignaled && t.flags.eofWrSignaled then (t.setClosed true).setActive false else t

/-- The data in pieces of at most one packet; the first argument bounds their number. -/
def segments : ℕ → List UInt8 → List (List UInt8)
  | 0,_ => []
  | n+1,data =>
    if data.isEmpty then []
    else data.take maxPacketLength::segments n (data.drop maxPacketLength)

/-- One packet for each segment of the data. -/
def sendSegments : List (List UInt8) → Endpoint → List Packet × Endpoint
  | [],t => ([],t)
  | segment::segments,t =>
    let (p,t) := t.createPacket .ack' segment
    let t := bufferPacketOut {t with send := {t.send with last := u32 (t.send.last+1)}} p
    let (ps,t) := sendSegments segments t
    (p::ps,t)

/-- The part of the user's data that is taken: at most 65535 bytes and at most the free space. -/
def accepted (t : Endpoint) (data : List UInt8) : List UInt8 :=
  data.take (min (min data.length 65535) t.getBufferSpaceOut)

/-- The packets of the accepted data and the socket after the flush. -/
def sendAccepted (t : Endpoint) (data : List UInt8) : List Packet × Endpoint :=
  let (ps,t) := sendSegments (segments (t.accepted data).length (t.accepted data)) t
  (ps,t.flush)

/-- The result with the packets that it created, the number of bytes taken, and the socket. -/
def sendUserData (t : Endpoint) (data : List UInt8) : List Packet × Except Errno ℕ × Endpoint :=
  if t.error.sendEof then
    if t.state=.closed then ([],.error .enotconn,t)
    else
      ([],.error .epipe,endOfFileSignalled {t with flags := {t.flags with eofWrSignaled := true}})
  else
    let n := (t.accepted data).length
    let (ps,t') := t.sendAccepted data
    (ps,if n=0 && !data.isEmpty then .error .ewouldblock else .ok n,t')

/-- The effect of `socket_removeFromInputBuffer`, besides the packet. -/
def removedFromInputBuffer (t : Endpoint) (p : Packet) (rest : List Packet) : Endpoint :=
  let s := {t.socket with
    inputBuffer := rest
    inputBufferLength := t.socket.inputBufferLength-p.payloadLength}
  let s := if 0<s.inputBufferSizePending then s.setInputBufferSize s.inputBufferSizePending else s
  let t := {t with socket := s}
  if t.socket.inputBufferLength=0 then t.setReadable false else t

/-- The bytes of a partly read packet that the user takes. -/
def readPartial (t : Endpoint) (n : ℕ) : List UInt8 × Endpoint :=
  match t.partialUserDataPacket with
  | none => ([],t)
  | some p =>
    if n=0 then ([],t)
    else
      let bytes := (p.payload.drop t.partialOffset).take n
      if p.payloadLength-t.partialOffset ≤ bytes.length then
        (bytes,{t with partialUserDataPacket := none, partialOffset := 0})
      else (bytes,{t with partialOffset := t.partialOffset+bytes.length})

/-- The loop over the input buffer; the first argument bounds the number of its packets. -/
def readPackets : ℕ → ℕ → Endpoint → List UInt8 × Endpoint
  | 0,_,t => ([],t)
  | fuel+1,n,t =>
    if n=0 then ([],t)
    else match t.socket.inputBuffer with
      | [] => ([],t)
      | p::rest =>
        let bytes := p.payload.take n
        let t := t.removedFromInputBuffer p rest
        if bytes.length<p.payloadLength then
          (bytes,{t with partialUserDataPacket := some p, partialOffset := bytes.length})
        else
          let (more,t) := readPackets fuel (n-bytes.length) t
          (bytes++more,t)

def autotuneReceiveBuffer (t : Endpoint) (bytesCopied : ℕ) : Endpoint :=
  if t.autotune.isEnabled && !t.autotune.userDisabledReceive && t.env.autotuneReceive then
    let copied := t.autotune.bytesCopied+bytesCopied
    let space := max (2*copied) t.autotune.space
    let currentSize := t.socket.getInputBufferSize
    let t : Endpoint := {t with autotune := {t.autotune with bytesCopied := copied}}
    let t : Endpoint := if currentSize<space then
        let newSize := min space (t.env.maxRMEM t.rttSmoothed)
        let t := {t with autotune := {t.autotune with space := space}}
        if currentSize<newSize then {t with socket := t.socket.setInputBufferSize newSize} else t
      else t
    if t.autotune.lastAdjustment=0 then
      {t with autotune := {t.autotune with lastAdjustment := t.now}}
    else if 0<t.rttSmoothed ∧ t.rttSmoothed*oneMillisecond<t.now-t.autotune.lastAdjustment then
      {t with autotune := {t.autotune with lastAdjustment := t.now, bytesCopied := 0}}
    else t
  else t

/-- The reader may have opened the window, which the sender is told by a task. -/
def reopenWindow (t : Endpoint) : Endpoint :=
  let t := t.updateReceiveWindow
  if t.send.lastWindow<t.receive.window && !t.receive.windowUpdatePending then
    {t with
      windowUpdateTasks := t.windowUpdateTasks+1
      receive := {t.receive with windowUpdatePending := true}}
  else t

/-- The part of a read after the copies. -/
def finishRead (t : Endpoint) (n : ℕ) (bytes : List UInt8) : Except Errno (List UInt8) × Endpoint :=
  let more := 0<t.socket.inputBufferLength ∨ t.partialUserDataPacket.isSome
  if more then
    let t := ((t.setReadable true).autotuneReceiveBuffer bytes.length).reopenWindow
    (if bytes.isEmpty && n ≠ 0 then .error .ewouldblock else .ok bytes,t)
  else if t.unorderedInputLength=0 ∧ t.error.receiveEof then
    if bytes.isEmpty then
      if t.state=.closed then (.error .enotconn,t)
      else (.ok [],endOfFileSignalled {t with flags := {t.flags with eofRdSignaled := true}})
    else (.ok bytes,((t.setReadable true).autotuneReceiveBuffer bytes.length).reopenWindow)
  else
    let t := ((t.setReadable false).autotuneReceiveBuffer bytes.length).reopenWindow
    (if bytes.isEmpty then .error .ewouldblock else .ok bytes,t)

/-- A read into a buffer that can be written. -/
def receiveUserData (t : Endpoint) (n : ℕ) : Except Errno (List UInt8) × Endpoint :=
  let t := t.flush
  if t.socket.inputBufferLength=0 ∧ t.partialUserDataPacket=none ∧ t.error.receiveEof=false then
    (.error .ewouldblock,t)
  else
    let (bytes,t) := t.readPartial n
    let (more,t) := readPackets t.socket.inputBuffer.length (n-bytes.length) t
    t.finishRead n (bytes++more)

def sendWindowUpdate (t : Endpoint) : Endpoint :=
  let t := sendControlPacket {t with windowUpdateTasks := t.windowUpdateTasks-1} .ack'
  {t with receive := {t.receive with windowUpdatePending := false}}

/-- A FIN now, or after the data that is still to be sent. -/
def closeWrite (t : Endpoint) : Endpoint :=
  if t.getOutputBufferLength=0 then t.sendShutdownFin
  else {t with flags := {t.flags with shouldSendWrFin := true}}

def close (t : Endpoint) : Endpoint :=
  let t := setActive (setClosed
    {t with flags := {t.flags with localClosedWr := true, localClosedRd := true}} true) false
  match t.state with
  | .listen => t.setState .closed
  | .synSent => t.setState .closed
  | .synReceived => t.closeWrite
  | .established => t.closeWrite
  | .closeWait => t.closeWrite
  | .finWait1 => t
  | .finWait2 => t
  | .closing => t
  | .timeWait => t
  | .lastAck => t
  | .closed => t.setState .closed

def shutdown (t : Endpoint) (read write : Bool) : Except Errno Unit × Endpoint :=
  if t.state=.synSent ∨ t.state=.synReceived ∨ t.state=.listen ∨ t.state=.closed then
    (.error .enotconn,t)
  else
    let t := if read then
        {t with
          flags := {t.flags with localClosedRd := true}
          error := {t.error with receiveEof := true}}
      else t
    let t := if write && !t.flags.localClosedWr then
        closeWrite {t with
          flags := {t.flags with localClosedWr := true}
          error := {t.error with sendEof := true}}
      else t
    (.ok (),t)

end Endpoint
end Tcp
end Phantom
