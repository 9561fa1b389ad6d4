import Phantom.Syscall.PluginPointers

/-! The handlers that ask for pointers into the memory of the plugin, and the calls of a process
between the flushes of `threadpreload_resume`. -/
namespace Phantom.Syscall.PluginPointers

open Checked
open FilePosition (syscallIoBufsize uioMaxiov einval)
open FilePosition.File (vecOffset)

/-! `unistd.c`. -/

/-- `_syscallhandler_readHelper`. -/
def readHelper (w : World) (fd : ℤ) (bufPtr bufSize : ℕ) (offset : ℤ) : Handler SysCallReturn :=
  match w.legacy fd with
  | none => pure (.done (-ebadf))
  | some desc =>
    if desc.type ≠ .file ∧ offset ≠ 0 then pure (.done (-espipe))
    else if desc.type=.tcpSocket ∨ desc.type=.udpSocket then recvfromHelper w fd bufPtr bufSize 0 0 0
    else if desc.closed then pure (.done (-ebadf))
    else do
      let sizeNeeded := min bufSize syscallIoBufsize
      let result ←
        match desc.type with
        | .file | .eventd | .timer => do
          processGetWriteablePtr
          pure desc.io
        | .pipe => transportReceiveUserData desc bufPtr sizeNeeded
        | _ => pure (-eopnotsupp)
      pure (returned desc.nonblocking result)

/-- `_syscallhandler_writeHelper`. -/
def writeHelper (w : World) (fd : ℤ) (bufPtr bufSize : ℕ) (offset : ℤ) : Handler SysCallReturn :=
  match w.legacy fd with
  | none => pure (.done (-ebadf))
  | some desc =>
    if desc.type ≠ .file ∧ offset ≠ 0 then pure (.done (-espipe))
    else if desc.type=.tcpSocket ∨ desc.type=.udpSocket then sendtoHelper w fd bufPtr bufSize 0 0 0
    else if desc.closed then pure (.done (-ebadf))
    else do
      let sizeNeeded := min bufSize syscallIoBufsize
      let result ←
        match desc.type with
        | .file | .eventd => do
          processGetReadablePtr ()
          pure desc.io
        | .timer => pure (-einval)
        | .pipe => transportSendUserData desc bufPtr sizeNeeded
        | _ => pure (-eopnotsupp)
      pure (returned desc.nonblocking result)

/-- `read_helper` and `write_helper` of `unistd.rs` take no pointers of the process; what is not one
of their files goes to the handlers above. -/
def unlessPosixFile (w : World) (fd : ℤ) (handler : Handler SysCallReturn) : Handler SysCallReturn :=
  match w.descriptors fd with
  | none => pure (.done (-ebadf))
  | some (.posixFile result nonblocking) => pure (returned nonblocking result)
  | some (.legacy _) => handler

def read (w : World) (fd : ℤ) (bufPtr bufSize : ℕ) : Handler SysCallReturn :=
  unlessPosixFile w fd (readHelper w fd bufPtr bufSize 0)

def pread64 (w : World) (fd : ℤ) (bufPtr bufSize : ℕ) (offset : ℤ) : Handler SysCallReturn :=
  unlessPosixFile w fd (readHelper w fd bufPtr bufSize offset)

def write (w : World) (fd : ℤ) (bufPtr bufSize : ℕ) : Handler SysCallReturn :=
  unlessPosixFile w fd (writeHelper w fd bufPtr bufSize 0)

def pwrite64 (w : World) (fd : ℤ) (bufPtr bufSize : ℕ) (offset : ℤ) : Handler SysCallReturn :=
  unlessPosixFile w fd (writeHelper w fd bufPtr bufSize offset)

/-! `uio.c`. -/

/-- The check of the buffers at the end of `_syscallhandler_validateVecParams`. -/
def checkBuffers : List (ℕ × ℕ) → Option ℤ
  | [] => none
  | (base,len)::iov =>
    if base=0 then some (-efault) else if len=0 then some (-einval) else checkBuffers iov

/-- `_syscallhandler_validateVecParams`: the return of the call, or its descriptor and its buffers. -/
def validateVecParams (w : World) (fd : ℤ) (iovPtr iovlen offset : ℕ) :
    Handler (Except ℤ (LegacyDescriptor × List (ℕ × ℕ))) :=
  match w.legacy fd with
  | none => pure (.error (-ebadf))
  | some desc =>
    if iovlen=0 then pure (.error 0)
    else if uioMaxiov < iovlen then pure (.error (-einval))
    else if iovPtr=0 then pure (.error (-efault))
    else if desc.type ≠ .file ∧ offset ≠ 0 then pure (.error (-espipe))
    else do
      let iov ← processGetReadablePtr ((List.range iovlen).map (w.iovec iovPtr))
      pure
        (match checkBuffers iov with
        | some errcode => .error errcode
        | none => .ok (desc,iov))

/-- The loops over the buffers of a descriptor that is not a file. -/
def vecLoop (transfer : ℕ → ℕ × ℕ → Handler ℤ) : ℕ → List (ℕ × ℕ) → ℕ → ℤ → Handler ℤ
  | _,[],_,result => pure result
  | i,buf::iov,totalBytesWritten,_ => do
    let result ← transfer i buf
    if 0<result then vecLoop transfer (i+1) iov (totalBytesWritten+result.toNat) result
    else if result=-ewouldblock ∧ 0<totalBytesWritten then pure totalBytesWritten
    else pure result

/-- The field for the return value; 0 if the call blocks. -/
def retval : SysCallReturn → ℤ
  | .done value => value
  | .block => 0

def readTransfer (w : World) (fd : ℤ) (desc : LegacyDescriptor) (i : ℕ) (buf : ℕ × ℕ) : Handler ℤ :=
  match desc.type with
  | .pipe => transportReceiveUserData (w.descriptorAt i desc) buf.1 buf.2
  | .tcpSocket | .udpSocket => do
    let scr ← recvfromHelper (w.transfer i) fd buf.1 buf.2 0 0 0
    pure (retval scr)
  | _ => pure (-eopnotsupp)

def writeTransfer (w : World) (fd : ℤ) (desc : LegacyDescriptor) (i : ℕ) (buf : ℕ × ℕ) : Handler ℤ :=
  match desc.type with
  | .pipe => transportSendUserData (w.descriptorAt i desc) buf.1 buf.2
  | .tcpSocket | .udpSocket => do
    let scr ← sendtoHelper (w.transfer i) fd buf.1 buf.2 0 0 0
    pure (retval scr)
  | _ => pure (-eopnotsupp)

/-- `_syscallhandler_readvHelper` and `_syscallhandler_writevHelper`, by the pointer that they get for
each buffer of a file and by the transfer of one buffer of anything else. -/
def vecHelper (getPtr : Handler Unit)
    (transfer : World → ℤ → LegacyDescriptor → ℕ → ℕ × ℕ → Handler ℤ) (w : World) (fd : ℤ)
    (iovPtr iovlen : ℕ) (posL posH : BitVec 64) : Handler SysCallReturn := do
  match ← validateVecParams w fd iovPtr iovlen (vecOffset posL posH) with
  | .error errcode => pure (.done errcode)
  | .ok (desc,iov) => do
    let result ←
      if desc.type=.file then do
        iov.forM fun _ ↦ getPtr
        pure desc.io
      else vecLoop (transfer w fd desc) 0 iov 0 0
    pure (returned desc.nonblocking result)

def readvHelper (w : World) (fd : ℤ) (iovPtr iovlen : ℕ) (posL posH : BitVec 64) :
    Handler SysCallReturn :=
  vecHelper processGetWriteablePtr readTransfer w fd iovPtr iovlen posL posH

def writevHelper (w : World) (fd : ℤ) (iovPtr iovlen : ℕ) (posL posH : BitVec 64) :
    Handler SysCallReturn :=
  vecHelper (processGetReadablePtr ()) writeTransfer w fd iovPtr iovlen posL posH

/-! `socket.c`. -/

/-- The flags `SOCK_NONBLOCK | SOCK_CLOEXEC`. -/
def sockFlags : BitVec 32 := 0x80800

/-- `_syscallhandler_acceptHelper`. -/
def acceptHelper (w : World) (sockfd : ℤ) (addrPtr addrlenPtr : ℕ) (flags : BitVec 32) :
    Handler SysCallReturn :=
  if flags &&& ~~~sockFlags ≠ 0 then pure (.done (-einval))
  else
    match validateTCPSocketHelper w sockfd with
    | .error errcode => pure (.done errcode)
    | .ok desc =>
      if !desc.tcp.isValidListener then pure (.done (-einval))
      else if addrPtr ≠ 0 ∧ addrlenPtr=0 then pure (.done (-efault))
      else
        let (errcode,acceptedFd) := w.acceptServerPeer sockfd
        if errcode=-ewouldblock ∧ !desc.nonblocking then pure .block
        else if errcode<0 then pure (.done errcode)
        else do
          if addrPtr ≠ 0 then
            let _ ← getnameHelper w inetLen addrPtr addrlenPtr
          pure (.done acceptedFd)

def bind (w : World) (sockfd : ℤ) (addrPtr addrlen : ℕ) : Handler SysCallReturn :=
  match validateSocketHelper w sockfd with
  | .error errcode => pure (.done errcode)
  | .ok desc =>
    if desc.isBound then pure (.done (-einval))
    else if addrlen < inetLen then pure (.done (-einval))
    else if addrPtr=0 then pure (.done (-einval))
    else do
      let addr ← processGetReadablePtr (w.sockaddr addrPtr)
      if addr.family ≠ 2 then pure (.done (-einval))
      else pure (.done (w.bindHelper sockfd))

/-- `htonl(INADDR_LOOPBACK)`. -/
def loopbackAddr : ℕ := 0x0100007f

/-- The return of `connect` for what `socket_connectToPeer` answers. -/
def connectReturn (w : World) (desc : LegacyDescriptor) (errcode : ℤ) : SysCallReturn :=
  let blocking := desc.type==.tcpSocket && !desc.nonblocking
  if blocking ∧ errcode=-einprogress then .block
  else
    let errcode := if blocking ∧ w.wasBlocked ∧ errcode=-eisconn then 0 else errcode
    if errcode=-econnreset ∨ errcode=-enotconn then .done (-eisconn)
    else if errcode=-ealready then .done (-einprogress)
    else .done errcode

def connect (w : World) (sockfd : ℤ) (addrPtr addrlen : ℕ) : Handler SysCallReturn :=
  match validateSocketHelper w sockfd with
  | .error errcode => pure (.done errcode)
  | .ok desc =>
    if addrPtr=0 then pure (.done (-efault))
    else if addrlen < inetLen then pure (.done (-einval))
    else do
      let addr ← processGetReadablePtr (w.sockaddr addrPtr)
      let peerAddr := if addr.ip=0 then loopbackAddr else addr.ip
      if addr.family ≠ 2 ∧ addr.family ≠ 0 then pure (.done (-eafnosupport))
      else if !w.isFamilySupported sockfd addr.family then pure (.done (-eafnosupport))
      else if peerAddr ≠ loopbackAddr ∧ !w.isRoutable peerAddr then pure (.done (-111))
      else if !desc.isBound ∧ w.bindHelper sockfd<0 then pure (.done (w.bindHelper sockfd))
      else pure (connectReturn w desc (w.connectToPeer sockfd))

/-- The size of the name of a socket: the family alone, or a `struct sockaddr_in`. -/
def nameLen (desc : LegacyDescriptor) : ℕ := if desc.type=.unixSocket then 2 else inetLen

def getpeername (w : World) (sockfd : ℤ) (addrPtr addrlenPtr : ℕ) : Handler SysCallReturn :=
  match validateSocketHelper w sockfd with
  | .error errcode => pure (.done errcode)
  | .ok desc =>
    if desc.type ≠ .unixSocket ∧ !desc.hasPeerName then pure (.done (-enotconn))
    else getnameHelper w (nameLen desc) addrPtr addrlenPtr

def getsockname (w : World) (sockfd : ℤ) (addrPtr addrlenPtr : ℕ) : Handler SysCallReturn :=
  match validateSocketHelper w sockfd with
  | .error errcode => pure (.done errcode)
  | .ok desc => getnameHelper w (nameLen desc) addrPtr addrlenPtr

/-- `_syscallhandler_getTCPOptHelper` and `_syscallhandler_getSocketOptHelper`, by the level: the
options `TCP_INFO`, and `SO_SNDBUF`, `SO_RCVBUF` and `SO_ERROR`. -/
def getOptHelper (desc : LegacyDescriptor) (level optname : ℤ) : ℤ :=
  if level=6 then
    if desc.type ≠ .tcpSocket then -eopnotsupp else if optname=11 then 0 else -enoprotoopt
  else if level=1 then
    if optname=7 ∨ optname=8 ∨ optname=4 then 0 else -enoprotoopt
  else -enoprotoopt

def getsockopt (w : World) (sockfd level optname : ℤ) (optvalPtr optlenPtr : ℕ) :
    Handler SysCallReturn :=
  match validateSocketHelper w sockfd with
  | .error errcode => pure (.done errcode)
  | .ok desc =>
    if optlenPtr=0 then pure (.done (-efault))
    else do
      let optlen ← processReadPtr (w.u32 optlenPtr)
      if optlen=0 then pure (.done 0)
      else if optvalPtr=0 then pure (.done (-efault))
      else do
        processGetWriteablePtr
        processFlushPtrs
        processWritePtr
        pure (.done (getOptHelper desc level optname))

def listen (w : World) (sockfd : ℤ) : Handler SysCallReturn :=
  match validateTCPSocketHelper w sockfd with
  | .error errcode => pure (.done errcode)
  | .ok desc =>
    if !desc.tcp.isListeningAllowed then pure (.done (-eopnotsupp))
    else if desc.tcp.isValidListener then pure (.done 0)
    else if !desc.isBound ∧ w.bindHelper sockfd<0 then pure (.done (w.bindHelper sockfd))
    else pure (.done 0)

/-- `_syscallhandler_setSocketOptHelper`: the sizes of the buffers are read, `SO_REUSEADDR`,
`SO_REUSEPORT` and `SO_KEEPALIVE` are ignored. -/
def setSocketOptHelper (optname : ℤ) (optlen : ℕ) : Handler ℤ :=
  if optlen<4 then pure (-einval)
  else if optname=7 ∨ optname=8 then do
    processGetReadablePtr ()
    pure 0
  else pure (if optname=2 ∨ optname=15 ∨ optname=9 then 0 else -enoprotoopt)

def setsockopt (w : World) (sockfd level optname : ℤ) (optvalPtr optlen : ℕ) :
    Handler SysCallReturn :=
  match validateSocketHelper w sockfd with
  | .error errcode => pure (.done errcode)
  | .ok _ =>
    if optlen=0 then pure (.done (-einval))
    else if optvalPtr=0 then pure (.done (-efault))
    else do
      let errcode ← if level=1 then setSocketOptHelper optname optlen else pure (-enoprotoopt)
      pure (.done errcode)

def shutdown (w : World) (sockfd how : ℤ) : Handler SysCallReturn :=
  if how ≠ 0 ∧ how ≠ 1 ∧ how ≠ 2 then pure (.done (-einval))
  else
    match validateSocketHelper w sockfd with
    | .error errcode => pure (.done errcode)
    | .ok desc =>
      if desc.type=.tcpSocket ∨ desc.type=.udpSocket then pure (.done (w.shutdown sockfd how))
      else pure (.done (-enotconn))

def socket (w : World) (domain : ℤ) (type : BitVec 32) (protocol : ℤ) : Handler SysCallReturn :=
  let typeNoFlags := type &&& ~~~sockFlags
  if domain ≠ 2 then pure (.done (-eafnosupport))
  else if typeNoFlags ≠ 1 ∧ typeNoFlags ≠ 2 then pure (.done (-eprotonosupport))
  else if typeNoFlags=1 ∧ protocol ≠ 0 ∧ protocol ≠ 6 then pure (.done (-eprotonosupport))
  else if typeNoFlags=2 ∧ protocol ≠ 0 ∧ protocol ≠ 17 then pure (.done (-eprotonosupport))
  else pure (.done w.registered)

def socketpair (domain : ℤ) (type : BitVec 32) (protocol : ℤ) (fdsPtr : ℕ) :
    Handler SysCallReturn :=
  let typeNoFlags := type &&& ~~~sockFlags
  if fdsPtr=0 then pure (.done (-efault))
  else if domain ≠ 1 then pure (.done (-eopnotsupp))
  else if typeNoFlags ≠ 1 ∧ typeNoFlags ≠ 2 then pure (.done (-eprotonosupport))
  else if protocol ≠ 0 then pure (.done (-eprotonosupport))
  else do
    processGetWriteablePtr
    pure (.done 0)

/-! `poll.c`. -/

/-- `_syscallhandler_pollHelper`. -/
def pollHelper (w : World) (timeout : Option (ℤ × ℤ)) : Handler SysCallReturn := do
  let numReady ← processGetMutablePtr w.pollEvents
  if numReady=0 ∧ ¬(timeout=some (0,0) ∨ w.wasBlocked) then pure .block
  else pure (.done numReady)

/-- `_syscallhandler_checkPollArgs`. -/
def checkPollArgs (fdsPtr nfds : ℕ) : ℤ :=
  if 2^31-1<nfds then -einval else if fdsPtr=0 then -efault else 0

def poll (w : World) (fdsPtr nfds : ℕ) (timeoutMillis : ℤ) : Handler SysCallReturn :=
  if nfds=0 then pure (.done 0)
  else if checkPollArgs fdsPtr nfds ≠ 0 then pure (.done (checkPollArgs fdsPtr nfds))
  else pollHelper w (some (timeoutMillis.tdiv 1000,timeoutMillis.tmod 1000*1000000))

def ppoll (w : World) (fdsPtr nfds tsTimeoutPtr : ℕ) : Handler SysCallReturn :=
  if nfds=0 then pure (.done 0)
  else if checkPollArgs fdsPtr nfds ≠ 0 then pure (.done (checkPollArgs fdsPtr nfds))
  else if tsTimeoutPtr=0 then pollHelper w none
  else do
    let tsTimeoutVal ← processReadPtr (w.timespec tsTimeoutPtr)
    if tsTimeoutVal.1<0 ∨ tsTimeoutVal.2<0 then pure (.done (-einval))
    else pollHelper w (some tsTimeoutVal)

/-! `epoll.c`. -/

/-- `EPOLL_CLOEXEC`. -/
def epollCloexec : ℤ := 0x80000

/-- `_syscallhandler_createEpollHelper`. -/
def createEpollHelper (w : World) (size flags : ℤ) : Handler SysCallReturn :=
  if size ≤ 0 ∨ flags ≠ 0 ∧ flags ≠ epollCloexec then pure (.done (-einval))
  else pure (.done w.registered)

/-- `_syscallhandler_validateDescriptor` for an epoll. -/
def validateEpoll (w : World) (epfd : ℤ) : ℤ :=
  match w.legacy epfd with
  | none => -ebadf
  | some desc => if desc.closed then -ebadf else if desc.type ≠ .epoll then -einval else 0

/-- `EPOLL_CTL_DEL`. -/
def epollCtlDel : ℤ := 2

def epollCtl (w : World) (epfd op fd : ℤ) (eventPtr : ℕ) : Handler SysCallReturn :=
  if eventPtr=0 ∧ op ≠ epollCtlDel then pure (.done (-efault))
  else if epfd=fd then pure (.done (-einval))
  else if validateEpoll w epfd ≠ 0 then pure (.done (validateEpoll w epfd))
  else
    match w.descriptors fd with
    | none => pure (.done (-ebadf))
    | some child =>
      let isClosed : Bool :=
        match child with
        | .legacy desc => desc.closed
        | .posixFile _ _ => false
      if isClosed ∧ op ≠ epollCtlDel then pure (.done (-ebadf))
      else do
        if eventPtr ≠ 0 then processGetReadablePtr ()
        pure (.done w.epollControl)

def epollWait (w : World) (epfd : ℤ) (eventsPtr : ℕ) (maxevents timeoutMs : ℤ) :
    Handler SysCallReturn :=
  if maxevents ≤ 0 then pure (.done (-einval))
  else if eventsPtr=0 then pure (.done (-efault))
  else if validateEpoll w epfd ≠ 0 then pure (.done (validateEpoll w epfd))
  else if w.epollNumReadyEvents epfd=0 then
    if timeoutMs=0 ∨ w.wasBlocked then pure (.done 0) else pure .block
  else do
    processGetWriteablePtr
    pure (.done (min maxevents.toNat (w.epollNumReadyEvents epfd) : ℕ))

/-! `futex.c`. -/

/-- `_syscallhandler_futexWaitHelper` after the timeout. -/
def futexWait (w : World) (futexVPtr : ℕ) (expectedVal : BitVec 32) (hasTimeout : Bool) :
    Handler SysCallReturn := do
  let futexVal ← processGetReadablePtr (w.u32 futexVPtr)
  if !w.wasBlocked ∧ futexVal ≠ expectedVal.toNat then pure (.done (-ewouldblock))
  else if w.wasBlocked then pure (.done (if hasTimeout ∧ w.timeoutExpired then -110 else 0))
  else pure .block

/-- `_syscallhandler_futexWaitHelper`. -/
def futexWaitHelper (w : World) (futexVPtr : ℕ) (expectedVal : BitVec 32) (timeoutVPtr : ℕ) :
    Handler SysCallReturn :=
  if timeoutVPtr ≠ 0 then do
    let timeout ← processGetReadablePtr (w.timespec timeoutVPtr)
    if ¬(0 ≤ timeout.2 ∧ timeout.2 ≤ 999999999) then pure (.done (-einval))
    else futexWait w futexVPtr expectedVal true
  else futexWait w futexVPtr expectedVal false

/-- `_syscallhandler_futexWakeHelper`. -/
def futexWakeHelper (w : World) (numWakeups : BitVec 32) : Handler SysCallReturn :=
  pure (.done (if 0<numWakeups.toInt then w.futexWoken else 0))

/-- The options are `FUTEX_PRIVATE_FLAG` and `FUTEX_CLOCK_REALTIME`, and the operations that are
handled are `FUTEX_WAIT`, `FUTEX_WAKE`, `FUTEX_WAIT_BITSET` and `FUTEX_WAKE_BITSET`, the last two for
every bit. -/
def futex (w : World) (uaddrptr : ℕ) (futexOp val : BitVec 32) (timeoutptr : ℕ) (val3 : BitVec 32) :
    Handler SysCallReturn :=
  let operation := futexOp &&& ~~~384
  if uaddrptr=0 then pure (.done (-efault))
  else if operation=0 ∨ operation=9 ∧ val3=-1 then futexWaitHelper w uaddrptr val timeoutptr
  else if operation=1 ∨ operation=10 ∧ val3=-1 then futexWakeHelper w val
  else pure (.done (-38))

/-! `time.c`. -/

def nanosleep (w : World) (reqPtr : ℕ) : Handler SysCallReturn :=
  if reqPtr=0 then pure (.done (-efault))
  else do
    let req ← processGetReadablePtr (w.timespec reqPtr)
    if ¬(0 ≤ req.2 ∧ req.2 ≤ 999999999) then pure (.done (-einval))
    else if (0<req.1 ∨ 0<req.2) ∧ !w.wasBlocked then pure .block
    else pure (.done 0)

def clockGettime (resPtr : ℕ) : Handler SysCallReturn :=
  if resPtr=0 then pure (.done (-efault))
  else do
    processGetWriteablePtr
    pure (.done 0)

def time (w : World) (tlocPtr : ℕ) : Handler SysCallReturn := do
  if tlocPtr ≠ 0 then processGetWriteablePtr
  pure (.done w.seconds)

def gettimeofday (tvPtr : ℕ) : Handler SysCallReturn := do
  if tvPtr ≠ 0 then processGetWriteablePtr
  pure (.done 0)

/-- The calls with their arguments. -/
inductive Call where
  | read (fd : ℤ) (bufPtr bufSize : ℕ)
  | pread64 (fd : ℤ) (bufPtr bufSize : ℕ) (offset : ℤ)
  | write (fd : ℤ) (bufPtr bufSize : ℕ)
  | pwrite64 (fd : ℤ) (bufPtr bufSize : ℕ) (offset : ℤ)
  | readv (fd : ℤ) (iovPtr iovlen : ℕ)
  | preadv (fd : ℤ) (iovPtr iovlen : ℕ) (posL posH : BitVec 64)
  | preadv2 (fd : ℤ) (iovPtr iovlen : ℕ) (posL posH : BitVec 64) (flags : BitVec 32)
  | writev (fd : ℤ) (iovPtr iovlen : ℕ)
  | pwritev (fd : ℤ) (iovPtr iovlen : ℕ) (posL posH : BitVec 64)
  | pwritev2 (fd : ℤ) (iovPtr iovlen : ℕ) (posL posH : BitVec 64) (flags : BitVec 32)
  | accept (sockfd : ℤ) (addrPtr addrlenPtr : ℕ)
  | accept4 (sockfd : ℤ) (addrPtr addrlenPtr : ℕ) (flags : BitVec 32)
  | bind (sockfd : ℤ) (addrPtr addrlen : ℕ)
  | connect (sockfd : ℤ) (addrPtr addrlen : ℕ)
  | getpeername (sockfd : ℤ) (addrPtr addrlenPtr : ℕ)
  | getsockname (sockfd : ℤ) (addrPtr addrlenPtr : ℕ)
  | getsockopt (sockfd level optname : ℤ) (optvalPtr optlenPtr : ℕ)
  | listen (sockfd backlog : ℤ)
  | recvfrom (sockfd : ℤ) (bufPtr bufSize : ℕ) (flags : BitVec 32) (srcAddrPtr addrlenPtr : ℕ)
  | sendto (sockfd : ℤ) (bufPtr bufSize : ℕ) (flags : BitVec 32) (destAddrPtr addrlen : ℕ)
  | setsockopt (sockfd level optname : ℤ) (optvalPtr optlen : ℕ)
  | shutdown (sockfd how : ℤ)
  | socket (domain : ℤ) (type : BitVec 32) (protocol : ℤ)
  | socketpair (domain : ℤ) (type : BitVec 32) (protocol : ℤ) (fdsPtr : ℕ)
  | poll (fdsPtr nfds : ℕ) (timeoutMillis : ℤ)
  | ppoll (fdsPtr nfds tsTimeoutPtr : ℕ)
  | epollCreate (size : ℤ)
  | epollCreate1 (flags : ℤ)
  | epollCtl (epfd op fd : ℤ) (eventPtr : ℕ)
  | epollWait (epfd : ℤ) (eventsPtr : ℕ) (maxevents timeoutMs : ℤ)
  | futex (uaddrptr : ℕ) (futexOp val : BitVec 32) (timeoutptr : ℕ) (val3 : BitVec 32)
  | getRobustList
  | setRobustList
  | nanosleep (reqPtr : ℕ)
  | clockGettime (resPtr : ℕ)
  | time (tlocPtr : ℕ)
  | gettimeofday (tvPtr : ℕ)

/-- The handler of a call. -/
def handle (w : World) : Call → Handler SysCallReturn
  | .read fd bufPtr bufSize => read w fd bufPtr bufSize
  | .pread64 fd bufPtr bufSize offset => pread64 w fd bufPtr bufSize offset
  | .write fd bufPtr bufSize => write w fd bufPtr bufSize
  | .pwrite64 fd bufPtr bufSize offset => pwrite64 w fd bufPtr bufSize offset
  | .readv fd iovPtr iovlen => readvHelper w fd iovPtr iovlen 0 0
  | .preadv fd iovPtr iovlen posL posH => readvHelper w fd iovPtr iovlen posL posH
  | .preadv2 fd iovPtr iovlen posL posH _ => readvHelper w fd iovPtr iovlen posL posH
  | .writev fd iovPtr iovlen => writevHelper w fd iovPtr iovlen 0 0
  | .pwritev fd iovPtr iovlen posL posH => writevHelper w fd iovPtr iovlen posL posH
  | .pwritev2 fd iovPtr iovlen posL posH _ => writevHelper w fd iovPtr iovlen posL posH
  | .accept sockfd addrPtr addrlenPtr => acceptHelper w sockfd addrPtr addrlenPtr 0
  | .accept4 sockfd addrPtr addrlenPtr flags => acceptHelper w sockfd addrPtr addrlenPtr flags
  | .bind sockfd addrPtr addrlen => bind w sockfd addrPtr addrlen
  | .connect sockfd addrPtr addrlen => connect w sockfd addrPtr addrlen
  | .getpeername sockfd addrPtr addrlenPtr => getpeername w sockfd addrPtr addrlenPtr
  | .getsockname sockfd addrPtr addrlenPtr => getsockname w sockfd addrPtr addrlenPtr
  | .getsockopt sockfd level optname optvalPtr optlenPtr =>
    getsockopt w sockfd level optname optvalPtr optlenPtr
  | .listen sockfd _ => listen w sockfd
  | .recvfrom sockfd bufPtr bufSize flags srcAddrPtr addrlenPtr =>
    recvfromHelper w sockfd bufPtr bufSize flags srcAddrPtr addrlenPtr
  | .sendto sockfd bufPtr bufSize flags destAddrPtr addrlen =>
    sendtoHelper w sockfd bufPtr bufSize flags destAddrPtr addrlen
  | .setsockopt sockfd level optname optvalPtr optlen =>
    setsockopt w sockfd level optname optvalPtr optlen
  | .shutdown sockfd how => shutdown w sockfd how
  | .socket domain type protocol => socket w domain type protocol
  | .socketpair domain type protocol fdsPtr => socketpair domain type protocol fdsPtr
  | .poll fdsPtr nfds timeoutMillis => poll w fdsPtr nfds timeoutMillis
  | .ppoll fdsPtr nfds tsTimeoutPtr => ppoll w fdsPtr nfds tsTimeoutPtr
  | .epollCreate size => createEpollHelper w size 0
  | .epollCreate1 flags => createEpollHelper w 1 flags
  | .epollCtl epfd op fd eventPtr => epollCtl w epfd op fd eventPtr
  | .epollWait epfd eventsPtr maxevents timeoutMs => epollWait w epfd eventsPtr maxevents timeoutMs
  | .futex uaddrptr futexOp val timeoutptr val3 => futex w uaddrptr futexOp val timeoutptr val3
  | .getRobustList | .setRobustList => pure (.done (-38))
  | .nanosleep reqPtr => nanosleep w reqPtr
  | .clockGettime resPtr => clockGettime resPtr
  | .time tlocPtr => time w tlocPtr
  | .gettimeofday tvPtr => gettimeofday tvPtr

/-- `syscall_rawReturnValueToErrno` of the return value is 0. -/
def isSuccess : SysCallReturn → Bool
  | .done value => !(decide (-4095 ≤ value) && decide (value ≤ -1))
  | .block => false

/-- `syscallhandler_make_syscall`. -/
def makeSyscall (w : World) (call : Call) : Handler SysCallReturn := do
  let scr ← handle w call
  if !isSuccess scr then processFreePtrsWithoutFlushing
  pure scr

/-- The calls that the plugin makes one after the other, each with what it finds. -/
def makeSyscalls : List (World × Call) → Handler Unit
  | [] => pure ()
  | (w,call)::calls => do
    let _ ← makeSyscall w call
    processFlushPtrs
    makeSyscalls calls

/-- `threadpreload_resume` flushes before the plugin runs and after each call. -/
def resume (calls : List (World × Call)) : Handler Unit := do
  processFlushPtrs
  makeSyscalls calls

end Phantom.Syscall.PluginPointers
