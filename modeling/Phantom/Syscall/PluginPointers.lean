import Phantom.Lib.Checked
import Phantom.Syscall.FutexCalls
import Phantom.Syscall.FilePosition

/-! The pointers into the memory of a plugin that `process.c` hands out, and the system calls that ask
for them: `unistd.c`, `uio.c`, `socket.c`, `poll.c`, `epoll.c`, `futex.c` and `time.c`, with what the
transports and `payload.c` do below them. The memory that they ask for is accessible. What they learn
from the rest of the host is a parameter. -/
namespace Phantom.Syscall.PluginPointers

open Checked
open FilePosition (syscallIoBufsize)

def ebadf : ℤ := 9

def ewouldblock : ℤ := 11

def enotconn : ℤ := 107

/-- The return from a system call, or a blocked one. -/
inductive SysCallReturn where
  | done (retval : ℤ)
  | block
  deriving DecidableEq, Repr

/-- The return of a result, of which a negative one may mean that the call blocks. -/
def returned (nonblocking : Bool) (result : ℤ) : SysCallReturn :=
  if result=-ewouldblock ∧ !nonblocking then .block else .done result

/-- The pointers of a process that are outstanding. -/
structure Process where
  memoryRefs : ℕ
  memoryMutRef : Bool
  deriving DecidableEq, Repr

abbrev Handler (α : Type) := Checked Process α

section Process

variable {α : Type}

/-- No mutable reference is outstanding. -/
def checkMutRef : Handler Unit := check fun proc ↦ !proc.memoryMutRef

def checkRefs : Handler Unit := check fun proc ↦ proc.memoryRefs==0

def processReadPtr (value : α) : Handler α := do
  checkMutRef
  pure value

def processWritePtr : Handler Unit := do
  checkMutRef
  checkRefs

def processGetReadablePtr (value : α) : Handler α := do
  checkMutRef
  modify fun proc ↦ {proc with memoryRefs := proc.memoryRefs+1}
  pure value

def processGetWriteablePtr : Handler Unit := do
  checkMutRef
  checkRefs
  modify fun proc ↦ {proc with memoryMutRef := true}

def processGetMutablePtr (value : α) : Handler α := do
  checkMutRef
  checkRefs
  modify fun proc ↦ {proc with memoryMutRef := true}
  pure value

def processFlushPtrs : Handler Unit := modify fun _ ↦ ⟨0,false⟩

def processFreePtrsWithoutFlushing : Handler Unit := modify fun _ ↦ ⟨0,false⟩

end Process

/-! Numbers of errors. -/

def efault : ℤ := 14

def espipe : ℤ := 29

def epipe : ℤ := 32

def enotsock : ℤ := 88

def enoprotoopt : ℤ := 92

def eprotonosupport : ℤ := 93

def eopnotsupp : ℤ := 95

def eafnosupport : ℤ := 97

def eisconn : ℤ := 106

def econnreset : ℤ := 104

def ealready : ℤ := 114

def einprogress : ℤ := 115

/-! Descriptors. -/

inductive DescriptorType where
  | tcpSocket
  | udpSocket
  | pipe
  | unixSocket
  | epoll
  | eventd
  | timer
  | file
  deriving DecidableEq, Repr

/-- One end of a pipe or of a pair of sockets; `linked` is the space that the other end has left. -/
structure Channel where
  bufferLength : ℕ
  linked : Option ℕ
  deriving DecidableEq, Repr

/-- The packets of the buffers are known by the lengths of their payloads, as `_tcp_flush` leaves them
at the start of a call. -/
structure Tcp where
  connectionError : ℤ
  partialUserDataPacket : Option ℕ
  partialOffset : ℕ
  inputPackets : List ℕ
  unorderedInputLength : ℕ
  receiveEof : Bool
  sendEof : Bool
  isClosed : Bool
  bufferSpaceOut : ℕ
  isValidListener : Bool
  isListeningAllowed : Bool
  deriving DecidableEq, Repr

structure Udp where
  inputPackets : List ℕ
  outputBufferSpace : ℕ
  deriving DecidableEq, Repr

/-- A descriptor with the state of whatever its type is; `io` is what an operation on a file, an event
descriptor or a timer returns. -/
structure LegacyDescriptor where
  type : DescriptorType
  closed : Bool
  nonblocking : Bool
  channel : Channel
  tcp : Tcp
  udp : Udp
  io : ℤ
  isBound : Bool
  hasPeerName : Bool
  deriving DecidableEq, Repr

inductive CompatDescriptor where
  | legacy (desc : LegacyDescriptor)
  | posixFile (result : ℤ) (nonblocking : Bool)

structure SockAddr where
  family : ℕ
  ip : ℕ
  port : ℕ

/-- What a call finds: the descriptors, what it reads from the memory of the plugin, and what the rest
of the host answers. `later i` is what has become of a descriptor at the transfer `i` of a vectored
call. -/
structure World where
  descriptors : ℤ → Option CompatDescriptor
  later : ℕ → LegacyDescriptor → LegacyDescriptor
  u32 : ℕ → ℕ
  iovec : ℕ → ℕ → ℕ × ℕ
  timespec : ℕ → ℤ × ℤ
  sockaddr : ℕ → SockAddr
  wasBlocked : Bool
  acceptServerPeer : ℤ → ℤ × ℤ
  bindHelper : ℤ → ℤ
  isFamilySupported : ℤ → ℕ → Bool
  isRoutable : ℕ → Bool
  connectToPeer : ℤ → ℤ
  peerName : ℤ → ℕ × ℕ
  randomFreePort : ℕ
  shutdown : ℤ → ℤ → ℤ
  registered : ℤ
  pollEvents : ℕ
  epollControl : ℤ
  epollNumReadyEvents : ℤ → ℕ
  futexWoken : ℤ
  timeoutExpired : Bool
  seconds : ℤ

namespace World

/-- `process_getRegisteredLegacyDescriptor`. -/
def legacy (w : World) (fd : ℤ) : Option LegacyDescriptor :=
  match w.descriptors fd with
  | some (.legacy desc) => some desc
  | _ => none

def descriptorAt (w : World) : ℕ → LegacyDescriptor → LegacyDescriptor
  | 0,desc => desc
  | i+1,desc => w.later i desc

/-- What the transfer `i` of a vectored call finds. -/
def transfer (w : World) (i : ℕ) : World where
  __ := w
  descriptors fd :=
    match w.descriptors fd with
    | some (.legacy desc) => some (.legacy (w.descriptorAt i desc))
    | other => other

end World

/-! The transports. -/

/-- `payload_new`. -/
def payloadNew (data dataLength : ℕ) : Handler Unit :=
  if data ≠ 0 ∧ 0<dataLength then processReadPtr () else pure ()

/-- `packet_copyPayload`, through `payload_getData`. -/
def packetCopyPayload (payloadLength offset bufferLength : ℕ) : Handler ℕ :=
  let copyLength := min (payloadLength-offset) bufferLength
  if 0<copyLength then do
    processWritePtr
    pure copyLength
  else pure 0

/-- The packets of at most 1434 bytes that `_tcp_sendUserData` creates; as many as `fuel` allows. -/
def tcpCreateDataPackets : ℕ → ℕ → ℕ → Handler Unit
  | 0,_,_ => pure ()
  | fuel+1,buffer,remaining =>
    if 0<remaining then do
      let copyLength := min 1434 remaining
      payloadNew buffer copyLength
      tcpCreateDataPackets fuel (buffer+copyLength) (remaining-copyLength)
    else pure ()

def tcpSendUserData (tcp : Tcp) (buffer nBytes : ℕ) : Handler ℤ :=
  if tcp.sendEof then pure (if tcp.isClosed then -enotconn else -epipe)
  else do
    let remaining := min (min nBytes 65535) tcp.bufferSpaceOut
    tcpCreateDataPackets remaining buffer remaining
    pure (if remaining=0 ∧ nBytes ≠ 0 then -ewouldblock else remaining)

/-- The loop over the packets of the input buffer; returns the bytes copied so far, the packets that
are left, and whether one of them has become the partial packet. -/
def tcpCopyPackets : List ℕ → ℕ → ℕ → Handler (ℕ × List ℕ × Bool)
  | [],_,totalCopied => pure (totalCopied,[],false)
  | packetLength::packets,remaining,totalCopied =>
    if 0<remaining then do
      let bytesCopied ← packetCopyPayload packetLength 0 (min packetLength remaining)
      if bytesCopied<packetLength then pure (totalCopied+bytesCopied,packets,true)
      else tcpCopyPackets packets (remaining-bytesCopied) (totalCopied+bytesCopied)
    else pure (totalCopied,packetLength::packets,false)

/-- What is copied of a partial packet, and whether it is finished. -/
def tcpCopyPartial (tcp : Tcp) (nBytes : ℕ) : Handler (ℕ × Bool) :=
  match tcp.partialUserDataPacket with
  | none => pure (0,true)
  | some partialLength =>
    if 0<nBytes then do
      let partialBytes := partialLength-tcp.partialOffset
      let bytesCopied ← packetCopyPayload partialLength tcp.partialOffset (min partialBytes nBytes)
      pure (bytesCopied,partialBytes ≤ bytesCopied)
    else pure (0,false)

def tcpReceiveUserData (tcp : Tcp) (buffer nBytes : ℕ) : Handler ℤ :=
  if tcp.inputPackets.sum=0 ∧ tcp.partialUserDataPacket=none ∧ !tcp.receiveEof then
    pure (-ewouldblock)
  else if buffer=0 ∧ 0<nBytes then pure (-efault)
  else do
    let (copied,finished) ← tcpCopyPartial tcp nBytes
    let (totalCopied,packets,isPartial) ← tcpCopyPackets tcp.inputPackets (nBytes-copied) copied
    let moreReadableData := 0<packets.sum || isPartial || !finished
    if !moreReadableData ∧ tcp.unorderedInputLength=0 ∧ tcp.receiveEof ∧ totalCopied=0 then
      pure (if tcp.isClosed then -enotconn else 0)
    else if totalCopied=0 ∧ (nBytes ≠ 0 ∨ !moreReadableData) then pure (-ewouldblock)
    else pure totalCopied

/-- The largest datagram, `CONFIG_DATAGRAM_MAX_SIZE`. -/
def datagramMaxSize : ℕ := 65507

def udpSendUserData (udp : Udp) (buffer nBytes : ℕ) : Handler ℤ :=
  if datagramMaxSize<nBytes then pure (-90)
  else if udp.outputBufferSpace<nBytes then pure (-ewouldblock)
  else do
    payloadNew buffer nBytes
    pure nBytes

def udpReceiveUserData (udp : Udp) (buffer nBytes : ℕ) : Handler ℤ :=
  match udp.inputPackets with
  | [] => pure (-ewouldblock)
  | packetLength::_ =>
    if buffer=0 ∧ 0<nBytes then pure (-efault)
    else do
      let bytesCopied ← packetCopyPayload packetLength 0 (min nBytes packetLength)
      pure bytesCopied

/-- With `channel_linkedWrite` of the other end. -/
def channelSendUserData (channel : Channel) (nBytes : ℕ) : Handler ℤ :=
  if nBytes=0 then pure 0
  else
    match channel.linked with
    | none => pure (-epipe)
    | some available =>
      if available=0 then pure (-ewouldblock)
      else do
        processGetReadablePtr ()
        pure (min nBytes available : ℕ)

def channelReceiveUserData (channel : Channel) (nBytes : ℕ) : Handler ℤ :=
  if nBytes=0 then pure 0
  else if channel.bufferLength=0 then pure (if channel.linked=none then 0 else -ewouldblock)
  else do
    processGetWriteablePtr
    pure (min nBytes channel.bufferLength : ℕ)

def transportSendUserData (desc : LegacyDescriptor) (buffer nBytes : ℕ) : Handler ℤ :=
  match desc.type with
  | .tcpSocket => tcpSendUserData desc.tcp buffer nBytes
  | .udpSocket => udpSendUserData desc.udp buffer nBytes
  | _ => channelSendUserData desc.channel nBytes

def transportReceiveUserData (desc : LegacyDescriptor) (buffer nBytes : ℕ) : Handler ℤ :=
  match desc.type with
  | .tcpSocket => tcpReceiveUserData desc.tcp buffer nBytes
  | .udpSocket => udpReceiveUserData desc.udp buffer nBytes
  | _ => channelReceiveUserData desc.channel nBytes

/-! Sockets. -/

/-- `_syscallhandler_readableWhenClosed`. -/
def readableWhenClosed (desc : LegacyDescriptor) : Bool :=
  desc.type==.tcpSocket && desc.closed && desc.tcp.connectionError==(-eisconn)

def isSocket (type : DescriptorType) : Bool := type==.tcpSocket || type==.udpSocket || type==.unixSocket

/-- `_syscallhandler_validateSocketHelper`. -/
def validateSocketHelper (w : World) (sockfd : ℤ) : Except ℤ LegacyDescriptor :=
  if sockfd<0 then .error (-ebadf)
  else
    match w.legacy sockfd with
    | none => .error (-ebadf)
    | some desc =>
      if desc.closed then .error (-ebadf)
      else if !isSocket desc.type then .error (-enotsock)
      else .ok desc

/-- `_syscallhandler_validateTCPSocketHelper`. -/
def validateTCPSocketHelper (w : World) (sockfd : ℤ) : Except ℤ LegacyDescriptor :=
  match validateSocketHelper w sockfd with
  | .error errcode => .error errcode
  | .ok desc => if desc.type=.tcpSocket then .ok desc else .error (-eopnotsupp)

/-- The size of a `struct sockaddr_in`. -/
def inetLen : ℕ := 16

/-- `_syscallhandler_getnameHelper`. -/
def getnameHelper (w : World) (slen addrPtr addrlenPtr : ℕ) : Handler SysCallReturn :=
  if addrPtr=0 ∨ addrlenPtr=0 then pure (.done (-efault))
  else do
    let addrlen ← processReadPtr (w.u32 addrlenPtr)
    let retSize := min addrlen slen
    processWritePtr
    if 0<retSize then do
      processWritePtr
      pure (.done 0)
    else pure (.done 0)

/-- `MSG_DONTWAIT` among the flags. -/
def dontWait (flags : BitVec 32) : Bool := flags &&& 0x40 != 0

/-- The size that is asked of the transport. -/
def sizeNeeded (type : DescriptorType) (bufSize : ℕ) : ℕ :=
  match type with
  | .tcpSocket => min bufSize syscallIoBufsize
  | .udpSocket => min bufSize (datagramMaxSize+1)
  | _ => bufSize

/-- The rest of `_syscallhandler_recvfromHelper`, for a socket that may be read. -/
def recvfrom (w : World) (desc : LegacyDescriptor) (bufPtr bufSize : ℕ) (flags : BitVec 32)
    (srcAddrPtr addrlenPtr : ℕ) : Handler SysCallReturn :=
  if srcAddrPtr ≠ 0 ∧ addrlenPtr=0 then pure (.done (-efault))
  else if desc.type=.tcpSocket ∧ 0<desc.tcp.connectionError then pure (.done (-enotconn))
  else do
    let retval ←
      if desc.type=.tcpSocket ∧ desc.tcp.connectionError=-ealready then pure (-ewouldblock)
      else transportReceiveUserData desc bufPtr (sizeNeeded desc.type bufSize)
    if retval=-ewouldblock ∧ !(desc.nonblocking || dontWait flags) then pure .block
    else if 0<retval ∧ srcAddrPtr ≠ 0 then do
      let _ ← getnameHelper w inetLen srcAddrPtr addrlenPtr
      pure (.done retval)
    else pure (.done retval)

/-- `_syscallhandler_recvfromHelper`. -/
def recvfromHelper (w : World) (sockfd : ℤ) (bufPtr bufSize : ℕ) (flags : BitVec 32)
    (srcAddrPtr addrlenPtr : ℕ) : Handler SysCallReturn :=
  match validateSocketHelper w sockfd with
  | .ok desc => recvfrom w desc bufPtr bufSize flags srcAddrPtr addrlenPtr
  | .error errcode =>
    if sockfd<0 then pure (.done errcode)
    else
      match w.legacy sockfd with
      | none => pure (.done errcode)
      | some desc =>
        if readableWhenClosed desc then recvfrom w desc bufPtr bufSize flags srcAddrPtr addrlenPtr
        else pure (.done errcode)

/-- The errors before `_syscallhandler_sendtoHelper` sends on the socket to the address. -/
def sendtoError (w : World) (sockfd : ℤ) (desc : LegacyDescriptor) (dest : ℕ × ℕ) : ℤ :=
  match desc.type with
  | .udpSocket =>
    let dest := if dest.1=0 ∨ dest.2=0 then w.peerName sockfd else dest
    if dest.1=0 ∨ dest.2=0 then -89
    else if !desc.isBound ∧ w.randomFreePort=0 then -99
    else 0
  | .tcpSocket =>
    if 0<desc.tcp.connectionError then -enotconn
    else if desc.tcp.connectionError=-eisconn then 0
    else if desc.tcp.connectionError=-ealready then -ewouldblock
    else desc.tcp.connectionError
  | _ => 0

/-- The rest of `_syscallhandler_sendtoHelper`, after the address of the destination. -/
def sendto (w : World) (sockfd : ℤ) (desc : LegacyDescriptor) (bufPtr bufSize : ℕ) (flags : BitVec 32)
    (dest : ℕ × ℕ) : Handler SysCallReturn := do
  let errcode := sendtoError w sockfd desc dest
  if errcode ≠ 0 ∧ errcode ≠ -ewouldblock then pure (.done errcode)
  else do
    let retval ← if errcode=0 then
        transportSendUserData desc bufPtr (sizeNeeded desc.type bufSize)
      else pure errcode
    if retval=-ewouldblock ∧ !(desc.nonblocking || dontWait flags) then
      pure (if 0<bufSize then .block else .done 0)
    else pure (.done retval)

/-- `_syscallhandler_sendtoHelper`. -/
def sendtoHelper (w : World) (sockfd : ℤ) (bufPtr bufSize : ℕ) (flags : BitVec 32)
    (destAddrPtr addrlen : ℕ) : Handler SysCallReturn :=
  match validateSocketHelper w sockfd with
  | .error errcode => pure (.done errcode)
  | .ok desc =>
    if bufPtr=0 then pure (.done (-efault))
    else if destAddrPtr ≠ 0 ∧ addrlen < inetLen then pure (.done (-einval))
    else if destAddrPtr ≠ 0 then do
      let destAddr ← processGetReadablePtr (w.sockaddr destAddrPtr)
      if destAddr.family ≠ 2 then pure (.done (-eafnosupport))
      else sendto w sockfd desc bufPtr bufSize flags (destAddr.ip,destAddr.port)
    else sendto w sockfd desc bufPtr bufSize flags (0,0)

end Phantom.Syscall.PluginPointers
