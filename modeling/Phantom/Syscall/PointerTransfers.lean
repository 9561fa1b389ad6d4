import Phantom.Syscall.PointerCalls

/-! What the transports need of the pointers that are outstanding: a send only shares them, and a
receive under a readable pointer fails as soon as there are data. -/
namespace Phantom.Syscall.PluginPointers

open Checked
open FilePosition (syscallIoBufsize uioMaxiov einval)
open FilePosition.File (vecOffset)

/-! What the operations of `process.c` need. -/

section Process

variable {α : Type} (value : α) (proc : Process)

@[simp] lemma wp_processReadPtr (Q : α → Process → Prop) :
    wp (processReadPtr value) Q proc ↔ proc.memoryMutRef=false ∧ Q value proc := by
  simp [processReadPtr,checkMutRef]

@[simp] lemma wp_processWritePtr (Q : Unit → Process → Prop) :
    wp processWritePtr Q proc ↔ proc.memoryMutRef=false ∧ proc.memoryRefs=0 ∧ Q () proc := by
  simp [processWritePtr,checkMutRef,checkRefs]

@[simp] lemma wp_processGetReadablePtr (Q : α → Process → Prop) :
    wp (processGetReadablePtr value) Q proc ↔
      proc.memoryMutRef=false ∧ Q value {proc with memoryRefs := proc.memoryRefs+1} := by
  simp [processGetReadablePtr,checkMutRef]

@[simp] lemma wp_processGetWriteablePtr (Q : Unit → Process → Prop) :
    wp processGetWriteablePtr Q proc ↔ proc.memoryMutRef=false ∧ proc.memoryRefs=0 ∧
      Q () {proc with memoryMutRef := true} := by
  simp [processGetWriteablePtr,checkMutRef,checkRefs]

@[simp] lemma wp_processGetMutablePtr (Q : α → Process → Prop) :
    wp (processGetMutablePtr value) Q proc ↔ proc.memoryMutRef=false ∧ proc.memoryRefs=0 ∧
      Q value {proc with memoryMutRef := true} := by
  simp [processGetMutablePtr,checkMutRef,checkRefs]

@[simp] lemma wp_processFlushPtrs (Q : Unit → Process → Prop) :
    wp processFlushPtrs Q proc ↔ Q () ⟨0,false⟩ := wp_modify _ _ _

@[simp] lemma wp_processFreePtrsWithoutFlushing (Q : Unit → Process → Prop) :
    wp processFreePtrsWithoutFlushing Q proc ↔ Q () ⟨0,false⟩ := wp_modify _ _ _

end Process

/-- Nothing is outstanding. -/
def Free (proc : Process) : Prop := proc=⟨0,false⟩

/-- Whatever is outstanding may be shared. -/
def Shared (proc : Process) : Prop := proc.memoryMutRef=false

/-- A readable pointer is outstanding. -/
def Held (proc : Process) : Prop := 0<proc.memoryRefs

/-! The transports send through pointers that may be shared. -/

section Send

lemma keeps_processReadPtr {α : Type} (value : α) : Keeps Shared (processReadPtr value) :=
  fun _ h ↦ (wp_processReadPtr _ _ _).mpr ⟨h,h⟩

lemma keeps_processGetReadablePtr {α : Type} (value : α) :
    Keeps Shared (processGetReadablePtr value) :=
  fun _ h ↦ (wp_processGetReadablePtr _ _ _).mpr ⟨h,h⟩

lemma keeps_payloadNew (data dataLength : ℕ) : Keeps Shared (payloadNew data dataLength) :=
  Keeps.ite (keeps_processReadPtr ()) (Keeps.pure _ _)

lemma keeps_tcpCreateDataPackets (fuel buffer remaining : ℕ) :
    Keeps Shared (tcpCreateDataPackets fuel buffer remaining) := by
  induction fuel generalizing buffer remaining with
  | zero => exact Keeps.pure _ _
  | succ fuel ih =>
    exact Keeps.ite (Keeps.bind (keeps_payloadNew _ _) fun _ ↦ ih _ _) (Keeps.pure _ _)

lemma keeps_tcpSendUserData (tcp : Tcp) (buffer nBytes : ℕ) :
    Keeps Shared (tcpSendUserData tcp buffer nBytes) :=
  Keeps.ite (Keeps.pure _ _)
    (Keeps.bind (keeps_tcpCreateDataPackets _ _ _) fun _ ↦ Keeps.pure _ _)

lemma keeps_udpSendUserData (udp : Udp) (buffer nBytes : ℕ) :
    Keeps Shared (udpSendUserData udp buffer nBytes) :=
  Keeps.ite (Keeps.pure _ _) (Keeps.ite (Keeps.pure _ _)
    (Keeps.bind (keeps_payloadNew _ _) fun _ ↦ Keeps.pure _ _))

lemma keeps_channelSendUserData (channel : Channel) (nBytes : ℕ) :
    Keeps Shared (channelSendUserData channel nBytes) := by
  unfold channelSendUserData
  refine Keeps.ite (Keeps.pure _ _) ?_
  cases channel.linked with
  | none => exact Keeps.pure _ _
  | some available =>
    exact Keeps.ite (Keeps.pure _ _)
      (Keeps.bind (keeps_processGetReadablePtr ()) fun _ ↦ Keeps.pure _ _)

lemma keeps_transportSendUserData (desc : LegacyDescriptor) (buffer nBytes : ℕ) :
    Keeps Shared (transportSendUserData desc buffer nBytes) := by
  unfold transportSendUserData
  split
  · exact keeps_tcpSendUserData _ _ _
  · exact keeps_udpSendUserData _ _ _
  · exact keeps_channelSendUserData _ _

lemma keeps_sendto (w : World) (sockfd : ℤ) (desc : LegacyDescriptor) (bufPtr bufSize : ℕ)
    (flags : BitVec 32) (dest : ℕ × ℕ) :
    Keeps Shared (sendto w sockfd desc bufPtr bufSize flags dest) := by
  unfold sendto
  refine Keeps.ite (Keeps.pure _ _) (Keeps.ite ?_ ?_)
  · refine Keeps.bind (keeps_transportSendUserData _ _ _) fun _ ↦ ?_
    exact Keeps.ite (Keeps.pure _ _) (Keeps.pure _ _)
  · exact Keeps.bind (Keeps.pure _ _) fun _ ↦ Keeps.ite (Keeps.pure _ _) (Keeps.pure _ _)

lemma keeps_sendtoHelper (w : World) (sockfd : ℤ) (bufPtr bufSize : ℕ) (flags : BitVec 32)
    (destAddrPtr addrlen : ℕ) :
    Keeps Shared (sendtoHelper w sockfd bufPtr bufSize flags destAddrPtr addrlen) := by
  unfold sendtoHelper
  cases validateSocketHelper w sockfd with
  | error errcode => exact Keeps.pure _ _
  | ok desc =>
    refine Keeps.ite (Keeps.pure _ _) (Keeps.ite (Keeps.pure _ _) (Keeps.ite ?_ ?_))
    · refine Keeps.bind (keeps_processGetReadablePtr _) fun _ ↦ ?_
      exact Keeps.ite (Keeps.pure _ _) (keeps_sendto _ _ _ _ _ _ _)
    · exact keeps_sendto _ _ _ _ _ _ _

end Send

/-! The transports receive through pointers of their own. With nothing to read they take none, and
under a readable pointer they fail as soon as there is something. -/

section Receive

/-- What is left of the partial packet. -/
def Tcp.partialBytes (tcp : Tcp) : ℕ :=
  match tcp.partialUserDataPacket with
  | none => 0
  | some partialLength => partialLength-tcp.partialOffset

/-- A receive would copy something to the plugin. -/
def HasData (desc : LegacyDescriptor) : Prop :=
  match desc.type with
  | .tcpSocket => 0<desc.tcp.partialBytes ∨ 0<desc.tcp.inputPackets.sum
  | .udpSocket => 0<desc.udp.inputPackets.headD 0
  | _ => 0<desc.channel.bufferLength

/-- The program takes no pointer, and reports an error or that it has done nothing. -/
def Idle {α : Type} (report : α → ℤ) (p : Handler α) : Prop :=
  ∀ proc, wp p (fun a t ↦ report a ≤ 0 ∧ t=proc) proc

variable {proc : Process}

lemma keeps_free_processWritePtr : Keeps Free processWritePtr := by
  rintro proc rfl
  simp [Free]

lemma keeps_packetCopyPayload (payloadLength offset bufferLength : ℕ) :
    Keeps Free (packetCopyPayload payloadLength offset bufferLength) :=
  Keeps.ite (Keeps.bind keeps_free_processWritePtr fun _ ↦ Keeps.pure _ _) (Keeps.pure _ _)

lemma keeps_tcpCopyPackets (packets : List ℕ) (remaining totalCopied : ℕ) :
    Keeps Free (tcpCopyPackets packets remaining totalCopied) := by
  induction packets generalizing remaining totalCopied with
  | nil => exact Keeps.pure _ _
  | cons packetLength packets ih =>
    refine Keeps.ite (Keeps.bind (keeps_packetCopyPayload _ _ _) fun _ ↦ ?_) (Keeps.pure _ _)
    exact Keeps.ite (Keeps.pure _ _) (ih _ _)

lemma keeps_tcpCopyPartial (tcp : Tcp) (nBytes : ℕ) : Keeps Free (tcpCopyPartial tcp nBytes) := by
  unfold tcpCopyPartial
  cases tcp.partialUserDataPacket with
  | none => exact Keeps.pure _ _
  | some partialLength =>
    exact Keeps.ite (Keeps.bind (keeps_packetCopyPayload _ _ _) fun _ ↦ Keeps.pure _ _)
      (Keeps.pure _ _)

lemma keeps_tcpReceiveUserData (tcp : Tcp) (buffer nBytes : ℕ) :
    Keeps Free (tcpReceiveUserData tcp buffer nBytes) := by
  unfold tcpReceiveUserData
  refine Keeps.ite (Keeps.pure _ _) (Keeps.ite (Keeps.pure _ _) ?_)
  refine Keeps.bind (keeps_tcpCopyPartial _ _) fun _ ↦ ?_
  refine Keeps.bind (keeps_tcpCopyPackets _ _ _) fun _ ↦ ?_
  exact Keeps.ite (Keeps.pure _ _) (Keeps.ite (Keeps.pure _ _) (Keeps.pure _ _))

lemma keeps_udpReceiveUserData (udp : Udp) (buffer nBytes : ℕ) :
    Keeps Free (udpReceiveUserData udp buffer nBytes) := by
  unfold udpReceiveUserData
  cases udp.inputPackets with
  | nil => exact Keeps.pure _ _
  | cons packetLength packets =>
    exact Keeps.ite (Keeps.pure _ _)
      (Keeps.bind (keeps_packetCopyPayload _ _ _) fun _ ↦ Keeps.pure _ _)

lemma packetCopyPayload_of_empty {payloadLength offset : ℕ} (h : payloadLength-offset=0)
    (bufferLength : ℕ) : packetCopyPayload payloadLength offset bufferLength=pure 0 := by
  unfold packetCopyPayload
  rw [h,Nat.zero_min]
  rfl

lemma not_passes_packetCopyPayload (hproc : Held proc) {payloadLength offset bufferLength : ℕ}
    (hpayload : 0<payloadLength-offset) (hbuffer : 0<bufferLength) :
    ¬Passes (packetCopyPayload payloadLength offset bufferLength) proc := by
  unfold packetCopyPayload
  rw [if_pos (lt_min hpayload hbuffer)]
  intro h
  have hwrite := (wp_processWritePtr _ _).mp h.of_bind
  exact absurd hwrite.2.1 hproc.ne'

lemma tcpCopyPackets_of_empty {packets : List ℕ} (h : packets.sum=0) {remaining : ℕ}
    (hremaining : 0<remaining) (totalCopied : ℕ) :
    tcpCopyPackets packets remaining totalCopied=pure (totalCopied,[],false) := by
  induction packets with
  | nil => rfl
  | cons packetLength packets ih =>
    rw [List.sum_cons] at h
    have hzero : packetLength=0 := by omega
    subst hzero
    rw [tcpCopyPackets,if_pos hremaining,packetCopyPayload_of_empty rfl,pure_bind,
      if_neg (lt_irrefl 0)]
    exact ih (by omega)

lemma not_passes_tcpCopyPackets (hproc : Held proc) {packets : List ℕ} (h : 0<packets.sum)
    {remaining : ℕ} (hremaining : 0<remaining) (totalCopied : ℕ) :
    ¬Passes (tcpCopyPackets packets remaining totalCopied) proc := by
  induction packets with
  | nil => exact absurd h (lt_irrefl 0)
  | cons packetLength packets ih =>
    rw [tcpCopyPackets,if_pos hremaining]
    by_cases hzero : packetLength=0
    · subst hzero
      rw [packetCopyPayload_of_empty rfl,pure_bind,if_neg (lt_irrefl 0)]
      rw [List.sum_cons,Nat.zero_add] at h
      exact ih h
    · intro hpass
      have hpos : 0<packetLength := Nat.pos_of_ne_zero hzero
      exact not_passes_packetCopyPayload hproc hpos (lt_min hpos hremaining) hpass.of_bind

lemma tcpCopyPartial_of_empty {tcp : Tcp} (h : tcp.partialBytes=0) {nBytes : ℕ}
    (hnBytes : 0<nBytes) : tcpCopyPartial tcp nBytes=pure (0,true) := by
  unfold tcpCopyPartial
  unfold Tcp.partialBytes at h
  cases hp : tcp.partialUserDataPacket with
  | none => rfl
  | some partialLength =>
    rw [hp] at h
    dsimp only at h ⊢
    rw [if_pos hnBytes,packetCopyPayload_of_empty h,pure_bind,h]
    rfl

lemma not_passes_tcpCopyPartial (hproc : Held proc) {tcp : Tcp} (h : 0<tcp.partialBytes)
    {nBytes : ℕ} (hnBytes : 0<nBytes) : ¬Passes (tcpCopyPartial tcp nBytes) proc := by
  unfold tcpCopyPartial
  unfold Tcp.partialBytes at h
  cases hp : tcp.partialUserDataPacket with
  | none =>
    rw [hp] at h
    exact absurd h (lt_irrefl 0)
  | some partialLength =>
    rw [hp] at h
    dsimp only at h ⊢
    rw [if_pos hnBytes]
    intro hpass
    exact not_passes_packetCopyPayload hproc h (lt_min h hnBytes) hpass.of_bind

lemma tcpReceiveUserData_of_data {tcp : Tcp} (h : 0<tcp.partialBytes ∨ 0<tcp.inputPackets.sum)
    (hproc : Held proc) {buffer nBytes : ℕ} (hbuffer : buffer ≠ 0) (hnBytes : 0<nBytes) :
    ¬Passes (tcpReceiveUserData tcp buffer nBytes) proc := by
  have hsome : ¬(tcp.inputPackets.sum=0 ∧ tcp.partialUserDataPacket=none ∧ !tcp.receiveEof) := by
    rintro ⟨hsum,hnone,-⟩
    unfold Tcp.partialBytes at h
    rw [hnone,hsum] at h
    exact h.elim (lt_irrefl 0) (lt_irrefl 0)
  unfold tcpReceiveUserData
  rw [if_neg hsome,if_neg fun hb ↦ hbuffer hb.1]
  intro hpass
  by_cases hleft : 0<tcp.partialBytes
  · exact not_passes_tcpCopyPartial hproc hleft hnBytes hpass.of_bind
  · rw [tcpCopyPartial_of_empty (by omega) hnBytes,pure_bind] at hpass
    exact not_passes_tcpCopyPackets hproc (by omega) (by omega) 0 hpass.of_bind

lemma idle_tcpReceiveUserData {tcp : Tcp} (hleft : tcp.partialBytes=0)
    (hpackets : tcp.inputPackets.sum=0) {nBytes : ℕ} (hnBytes : 0<nBytes) (buffer : ℕ) :
    Idle id (tcpReceiveUserData tcp buffer nBytes) := by
  intro proc
  unfold tcpReceiveUserData
  rw [tcpCopyPartial_of_empty hleft hnBytes,pure_bind]
  dsimp only
  rw [tcpCopyPackets_of_empty hpackets (by omega),pure_bind]
  dsimp only
  split_ifs <;> simp [ewouldblock,efault,enotconn]

lemma udpReceiveUserData_of_data {udp : Udp} (h : 0<udp.inputPackets.headD 0) (hproc : Held proc)
    {buffer nBytes : ℕ} (hbuffer : buffer ≠ 0) (hnBytes : 0<nBytes) :
    ¬Passes (udpReceiveUserData udp buffer nBytes) proc := by
  unfold udpReceiveUserData
  cases hp : udp.inputPackets with
  | nil =>
    rw [hp] at h
    exact absurd h (lt_irrefl 0)
  | cons packetLength packets =>
    rw [hp] at h
    dsimp only
    rw [if_neg fun hb ↦ hbuffer hb.1]
    intro hpass
    exact not_passes_packetCopyPayload hproc h (lt_min hnBytes h) hpass.of_bind

lemma idle_udpReceiveUserData {udp : Udp} (h : udp.inputPackets.headD 0=0) (buffer nBytes : ℕ) :
    Idle id (udpReceiveUserData udp buffer nBytes) := by
  intro proc
  unfold udpReceiveUserData
  cases hp : udp.inputPackets with
  | nil => simp [ewouldblock]
  | cons packetLength packets =>
    rw [hp] at h
    have hzero : packetLength=0 := h
    subst hzero
    dsimp only
    rw [packetCopyPayload_of_empty rfl,pure_bind]
    split_ifs <;> simp [efault]

lemma channelReceiveUserData_of_data {channel : Channel} (h : 0<channel.bufferLength)
    (hproc : Held proc) {nBytes : ℕ} (hnBytes : 0<nBytes) :
    ¬Passes (channelReceiveUserData channel nBytes) proc := by
  unfold channelReceiveUserData
  rw [if_neg hnBytes.ne',if_neg h.ne']
  intro hpass
  exact absurd ((wp_processGetWriteablePtr _ _).mp hpass.of_bind).2.1 hproc.ne'

lemma idle_channelReceiveUserData {channel : Channel} {nBytes : ℕ}
    (h : ¬(0<channel.bufferLength ∧ 0<nBytes)) : Idle id (channelReceiveUserData channel nBytes) := by
  intro proc
  unfold channelReceiveUserData
  by_cases hzero : nBytes=0
  · simp [hzero]
  · rw [if_neg hzero,if_pos (by omega)]
    split_ifs <;> simp [ewouldblock]

lemma transportReceiveUserData_of_data {desc : LegacyDescriptor} (h : HasData desc)
    (hproc : Held proc) {buffer nBytes : ℕ} (hbuffer : buffer ≠ 0) (hnBytes : 0<nBytes) :
    ¬Passes (transportReceiveUserData desc buffer nBytes) proc := by
  unfold transportReceiveUserData
  unfold HasData at h
  cases ht : desc.type with
  | tcpSocket =>
    rw [ht] at h
    exact tcpReceiveUserData_of_data h hproc hbuffer hnBytes
  | udpSocket =>
    rw [ht] at h
    exact udpReceiveUserData_of_data h hproc hbuffer hnBytes
  | _ =>
    rw [ht] at h
    exact channelReceiveUserData_of_data h hproc hnBytes

lemma idle_transportReceiveUserData {desc : LegacyDescriptor} (h : ¬HasData desc) {nBytes : ℕ}
    (hnBytes : 0<nBytes) (buffer : ℕ) :
    Idle id (transportReceiveUserData desc buffer nBytes) := by
  unfold transportReceiveUserData
  unfold HasData at h
  cases ht : desc.type with
  | tcpSocket =>
    rw [ht] at h
    exact idle_tcpReceiveUserData (by omega) (by omega) hnBytes buffer
  | udpSocket =>
    rw [ht] at h
    exact idle_udpReceiveUserData (by omega) buffer nBytes
  | _ =>
    rw [ht] at h
    exact idle_channelReceiveUserData fun hd ↦ h hd.1

end Receive

/-! `_syscallhandler_recvfromHelper`. -/

section Recvfrom

/-- The socket may be read: it is open, or closed before its data were. -/
def Readable (w : World) (sockfd : ℤ) (desc : LegacyDescriptor) : Prop :=
  0 ≤ sockfd ∧ w.legacy sockfd=some desc ∧
    (desc.closed=false ∧ isSocket desc.type=true ∨ readableWhenClosed desc=true)

/-- A TCP socket has a connection, or had one. -/
def Connected (desc : LegacyDescriptor) : Prop :=
  desc.type=.tcpSocket → desc.tcp.connectionError ≤ 0 ∧ desc.tcp.connectionError ≠ -ealready

variable {w : World} {sockfd : ℤ} {desc : LegacyDescriptor} {proc : Process}

lemma validateSocketHelper_eq (hfd : 0 ≤ sockfd) (hdesc : w.legacy sockfd=some desc) :
    validateSocketHelper w sockfd=
      if desc.closed then .error (-ebadf)
      else if !isSocket desc.type then .error (-enotsock)
      else .ok desc := by
  unfold validateSocketHelper
  rw [if_neg (not_lt.mpr hfd),hdesc]

lemma validateSocketHelper_ok (h : validateSocketHelper w sockfd=.ok desc) :
    0 ≤ sockfd ∧ w.legacy sockfd=some desc ∧ desc.closed=false ∧ isSocket desc.type=true := by
  unfold validateSocketHelper at h
  split_ifs at h with hfd
  cases hdesc : w.legacy sockfd with
  | none =>
    rw [hdesc] at h
    cases h
  | some d =>
    rw [hdesc] at h
    dsimp only at h
    split_ifs at h with hclosed hsocket
    cases h
    exact ⟨not_lt.mp hfd,rfl,by simpa using hclosed,by simpa using hsocket⟩

lemma validateSocketHelper_error {errcode : ℤ} (h : validateSocketHelper w sockfd=.error errcode) :
    errcode ≤ 0 := by
  unfold validateSocketHelper at h
  split_ifs at h with hfd
  · cases h
    decide
  · cases hdesc : w.legacy sockfd with
    | none =>
      rw [hdesc] at h
      cases h
      decide
    | some d =>
      rw [hdesc] at h
      dsimp only at h
      split_ifs at h <;> cases h <;> decide

lemma recvfromHelper_cases (w : World) (sockfd : ℤ) (bufPtr bufSize : ℕ) (flags : BitVec 32)
    (srcAddrPtr addrlenPtr : ℕ) :
    (∃ desc, Readable w sockfd desc ∧
      recvfromHelper w sockfd bufPtr bufSize flags srcAddrPtr addrlenPtr=
        recvfrom w desc bufPtr bufSize flags srcAddrPtr addrlenPtr) ∨
    (¬∃ desc, Readable w sockfd desc) ∧ ∃ errcode ≤ (0 : ℤ),
      recvfromHelper w sockfd bufPtr bufSize flags srcAddrPtr addrlenPtr=
        pure (.done errcode) := by
  unfold recvfromHelper
  cases hv : validateSocketHelper w sockfd with
  | ok desc =>
    obtain ⟨hfd,hdesc,hclosed,hsocket⟩ := validateSocketHelper_ok hv
    exact Or.inl ⟨desc,⟨hfd,hdesc,Or.inl ⟨hclosed,hsocket⟩⟩,rfl⟩
  | error errcode =>
    have herr := validateSocketHelper_error hv
    by_cases hfd : sockfd<0
    · exact Or.inr ⟨fun ⟨d,hd⟩ ↦ absurd hd.1 (not_le.mpr hfd),errcode,herr,if_pos hfd⟩
    · dsimp only
      rw [if_neg hfd]
      cases hdesc : w.legacy sockfd with
      | none =>
        refine Or.inr ⟨?_,errcode,herr,rfl⟩
        rintro ⟨d,-,hd,-⟩
        rw [hdesc] at hd
        cases hd
      | some desc =>
        dsimp only
        by_cases hreadable : readableWhenClosed desc=true
        · exact Or.inl ⟨desc,⟨not_lt.mp hfd,hdesc,Or.inr hreadable⟩,if_pos hreadable⟩
        · refine Or.inr ⟨?_,errcode,herr,if_neg hreadable⟩
          rintro ⟨d,-,hd,hopen | hwhen⟩
          · rw [hdesc] at hd
            cases hd
            rw [validateSocketHelper_eq (not_lt.mp hfd) hdesc] at hv
            simp [hopen.1,hopen.2] at hv
          · rw [hdesc] at hd
            cases hd
            exact hreadable hwhen

lemma sizeNeeded_pos {bufSize : ℕ} (h : 0<bufSize) (type : DescriptorType) :
    0<sizeNeeded type bufSize := by
  unfold sizeNeeded
  split
  · exact lt_min h (by decide)
  · exact lt_min h (by decide)
  · exact h

lemma keeps_getnameHelper (w : World) (slen addrPtr addrlenPtr : ℕ) :
    Keeps Free (getnameHelper w slen addrPtr addrlenPtr) := by
  rintro proc rfl
  unfold getnameHelper
  split_ifs <;> simp [Free]

lemma keeps_recvfrom (h : desc.type=.tcpSocket ∨ desc.type=.udpSocket) (bufPtr bufSize : ℕ)
    (flags : BitVec 32) (srcAddrPtr addrlenPtr : ℕ) :
    Keeps Free (recvfrom w desc bufPtr bufSize flags srcAddrPtr addrlenPtr) := by
  have hreceive : Keeps Free (transportReceiveUserData desc bufPtr (sizeNeeded desc.type bufSize)) := by
    unfold transportReceiveUserData
    rcases h with h | h
    · rw [h]
      exact keeps_tcpReceiveUserData _ _ _
    · rw [h]
      exact keeps_udpReceiveUserData _ _ _
  have hname : ∀ result : ℤ, Keeps Free (do
      let _ ← getnameHelper w inetLen srcAddrPtr addrlenPtr
      pure (SysCallReturn.done result)) :=
    fun result ↦ Keeps.bind (keeps_getnameHelper _ _ _ _) fun _ ↦ Keeps.pure _ _
  unfold recvfrom
  refine Keeps.ite (Keeps.pure _ _) (Keeps.ite (Keeps.pure _ _) (Keeps.ite ?_ ?_))
  · exact Keeps.bind (Keeps.pure _ _) fun _ ↦
      Keeps.ite (Keeps.pure _ _) (Keeps.ite (hname _) (Keeps.pure _ _))
  · exact Keeps.bind hreceive fun _ ↦
      Keeps.ite (Keeps.pure _ _) (Keeps.ite (hname _) (Keeps.pure _ _))

lemma recvfrom_eq (w : World) (desc : LegacyDescriptor) (bufPtr bufSize : ℕ) (flags : BitVec 32)
    (hconnected : Connected desc) (addrlenPtr : ℕ) :
    recvfrom w desc bufPtr bufSize flags 0 addrlenPtr=
      transportReceiveUserData desc bufPtr (sizeNeeded desc.type bufSize) >>= fun result ↦
        pure (returned (desc.nonblocking || dontWait flags) result) := by
  have hpos : ¬(desc.type=.tcpSocket ∧ 0<desc.tcp.connectionError) :=
    fun h ↦ absurd h.2 (not_lt.mpr (hconnected h.1).1)
  have halready : ¬(desc.type=.tcpSocket ∧ desc.tcp.connectionError=-ealready) :=
    fun h ↦ (hconnected h.1).2 h.2
  unfold recvfrom
  rw [if_neg fun h ↦ h.1 rfl,if_neg hpos]
  dsimp only
  rw [if_neg halready]
  refine bind_congr fun result ↦ ?_
  unfold returned
  split_ifs with hblock hname
  · rfl
  · exact absurd rfl hname.2
  · rfl

lemma recvfrom_of_data (hconnected : Connected desc) (hdata : HasData desc) (hproc : Held proc)
    {bufPtr bufSize : ℕ} (hbufPtr : bufPtr ≠ 0) (hbufSize : 0<bufSize) (flags : BitVec 32)
    (addrlenPtr : ℕ) : ¬Passes (recvfrom w desc bufPtr bufSize flags 0 addrlenPtr) proc := by
  rw [recvfrom_eq w desc bufPtr bufSize flags hconnected]
  intro hpass
  exact transportReceiveUserData_of_data hdata hproc hbufPtr (sizeNeeded_pos hbufSize _) hpass.of_bind

lemma retval_returned_le {nonblocking : Bool} {result : ℤ} (h : result ≤ 0) :
    retval (returned nonblocking result) ≤ 0 := by
  unfold returned
  split_ifs
  · exact le_refl 0
  · exact h

lemma Idle.returned {p : Handler ℤ} (h : Idle id p) (nonblocking : Bool) :
    Idle retval (p >>= fun result ↦ pure (returned nonblocking result)) := by
  intro proc
  rw [wp_bind]
  refine wp_mono (h proc) fun result t ht ↦ (wp_pure _ _ _).mpr ?_
  exact ⟨retval_returned_le ht.1,ht.2⟩

lemma idle_pure {α : Type} {report : α → ℤ} {a : α} (h : report a ≤ 0) : Idle report (pure a) :=
  fun _ ↦ (wp_pure _ _ _).mpr ⟨h,rfl⟩

lemma idle_recvfrom (h : ¬(Connected desc ∧ HasData desc)) {bufSize : ℕ} (hbufSize : 0<bufSize)
    (bufPtr : ℕ) (flags : BitVec 32) (addrlenPtr : ℕ) :
    Idle retval (recvfrom w desc bufPtr bufSize flags 0 addrlenPtr) := by
  by_cases hconnected : Connected desc
  · rw [recvfrom_eq w desc bufPtr bufSize flags hconnected]
    exact (idle_transportReceiveUserData (fun hdata ↦ h ⟨hconnected,hdata⟩)
      (sizeNeeded_pos hbufSize _) bufPtr).returned _
  · unfold recvfrom
    rw [if_neg fun h ↦ h.1 rfl]
    unfold Connected at hconnected
    push Not at hconnected
    obtain ⟨htcp,herr⟩ := hconnected
    by_cases hpos : 0<desc.tcp.connectionError
    · rw [if_pos ⟨htcp,hpos⟩]
      exact idle_pure (by decide)
    · rw [if_neg fun h ↦ hpos h.2]
      dsimp only
      rw [if_pos ⟨htcp,herr (not_lt.mp hpos)⟩,pure_bind]
      split_ifs with hblock hname
      · exact idle_pure (le_refl 0)
      · exact absurd rfl hname.2
      · exact idle_pure (by decide)

end Recvfrom

end Phantom.Syscall.PluginPointers
