import Phantom.Syscall.PointerTransfers

/-! The calls of a process fail exactly when one of them overlaps its pointers. -/
namespace Phantom.Syscall.PluginPointers

open Checked
open FilePosition (syscallIoBufsize uioMaxiov einval)
open FilePosition.File (vecOffset)

/-! Vectored calls. -/

section Vectors

/-- The parameters of a vectored call pass the checks. -/
structure ValidVec (w : World) (fd : ℤ) (iovPtr iovlen offset : ℕ) (desc : LegacyDescriptor) :
    Prop where
  registered : w.legacy fd=some desc
  nonempty : iovlen ≠ 0
  le_max : iovlen ≤ uioMaxiov
  nonnull : iovPtr ≠ 0
  seekable : desc.type=.file ∨ offset=0
  buffers : checkBuffers ((List.range iovlen).map (w.iovec iovPtr))=none

/-- The transfer of the first buffer has data to copy, or the buffers belong to a file. -/
def Fills (w : World) (fd : ℤ) (desc : LegacyDescriptor) : Prop :=
  match desc.type with
  | .file => True
  | .pipe => HasData desc
  | .tcpSocket | .udpSocket => Readable w fd desc ∧ Connected desc ∧ HasData desc
  | _ => False

variable {w : World} {fd : ℤ} {desc : LegacyDescriptor} {iovPtr iovlen offset : ℕ} {proc : Process}

lemma keeps_validateVecParams (w : World) (fd : ℤ) (iovPtr iovlen offset : ℕ) :
    Keeps Shared (validateVecParams w fd iovPtr iovlen offset) := by
  unfold validateVecParams
  cases w.legacy fd with
  | none => exact Keeps.pure _ _
  | some desc =>
    refine Keeps.ite (Keeps.pure _ _) (Keeps.ite (Keeps.pure _ _) (Keeps.ite (Keeps.pure _ _) ?_))
    refine Keeps.ite (Keeps.pure _ _) (Keeps.bind (keeps_processGetReadablePtr _) fun _ ↦ ?_)
    exact Keeps.pure _ _

lemma validateVecParams_of_valid (h : ValidVec w fd iovPtr iovlen offset desc) :
    validateVecParams w fd iovPtr iovlen offset ⟨0,false⟩=
      some (.ok (desc,(List.range iovlen).map (w.iovec iovPtr)),⟨1,false⟩) := by
  unfold validateVecParams
  rw [h.registered]
  dsimp only
  rw [if_neg h.nonempty,if_neg (not_lt.mpr h.le_max),if_neg h.nonnull]
  rw [if_neg fun hs ↦ h.seekable.elim hs.1 hs.2]
  have hread : ∀ {α : Type} (iov : List (ℕ × ℕ)) (f : List (ℕ × ℕ) → Checked Process α),
      (processGetReadablePtr iov >>= f) ⟨0,false⟩=f iov ⟨1,false⟩ := fun _ _ ↦ rfl
  rw [hread,h.buffers]
  rfl

lemma validateVecParams_of_not_valid (h : ¬∃ desc, ValidVec w fd iovPtr iovlen offset desc) :
    wp (validateVecParams w fd iovPtr iovlen offset) (fun r _ ↦ ∃ errcode, r=.error errcode)
      ⟨0,false⟩ := by
  unfold validateVecParams
  cases hdesc : w.legacy fd with
  | none => exact (wp_pure _ _ _).mpr ⟨_,rfl⟩
  | some desc =>
    dsimp only
    split_ifs with hempty hmax hnull hseek
    · exact (wp_pure _ _ _).mpr ⟨_,rfl⟩
    · exact (wp_pure _ _ _).mpr ⟨_,rfl⟩
    · exact (wp_pure _ _ _).mpr ⟨_,rfl⟩
    · exact (wp_pure _ _ _).mpr ⟨_,rfl⟩
    · rw [wp_bind,wp_processGetReadablePtr]
      refine ⟨rfl,(wp_pure _ _ _).mpr ?_⟩
      cases hbuffers : checkBuffers ((List.range iovlen).map (w.iovec iovPtr)) with
      | some errcode => exact ⟨errcode,rfl⟩
      | none =>
        have hseekable : desc.type=.file ∨ offset=0 := by
          rw [not_and_or] at hseek
          exact hseek.imp not_not.mp not_not.mp
        exact absurd ⟨desc,hdesc,hempty,not_lt.mp hmax,hnull,hseekable,hbuffers⟩ h

lemma checkBuffers_cons {buf : ℕ × ℕ} {iov : List (ℕ × ℕ)} (h : checkBuffers (buf::iov)=none) :
    buf.1 ≠ 0 ∧ 0<buf.2 := by
  unfold checkBuffers at h
  split_ifs at h with hbase hlen
  exact ⟨hbase,Nat.pos_of_ne_zero hlen⟩

lemma ValidVec.exists_first (h : ValidVec w fd iovPtr iovlen offset desc) :
    ∃ buf iov, (List.range iovlen).map (w.iovec iovPtr)=buf::iov ∧ buf.1 ≠ 0 ∧ 0<buf.2 := by
  have hbuffers := h.buffers
  cases hiov : (List.range iovlen).map (w.iovec iovPtr) with
  | nil =>
    have hlen := congrArg List.length hiov
    rw [List.length_map,List.length_range] at hlen
    exact absurd hlen h.nonempty
  | cons buf iov =>
    rw [hiov] at hbuffers
    exact ⟨buf,iov,rfl,checkBuffers_cons hbuffers⟩

@[simp] lemma transfer_zero (w : World) : w.transfer 0=w := by
  have h : (w.transfer 0).descriptors=w.descriptors := by
    funext fd
    unfold World.transfer
    dsimp only
    cases w.descriptors fd with
    | none => rfl
    | some entry => cases entry <;> rfl
  change {w with descriptors := (w.transfer 0).descriptors}=w
  rw [h]

lemma readTransfer_of_fills (hdesc : w.legacy fd=some desc) (hfile : desc.type ≠ .file)
    (h : Fills w fd desc) (hproc : Held proc) {buf : ℕ × ℕ} (hbase : buf.1 ≠ 0) (hlen : 0<buf.2) :
    ¬Passes (readTransfer w fd desc 0 buf) proc := by
  have hsocket : ∀ bufPtr bufSize : ℕ, bufPtr ≠ 0 → 0<bufSize →
      Readable w fd desc ∧ Connected desc ∧ HasData desc →
      ¬Passes (do
        let scr ← recvfromHelper (w.transfer 0) fd bufPtr bufSize 0 0 0
        pure (retval scr)) proc := by
    rintro bufPtr bufSize hbufPtr hbufSize ⟨hreadable,hconnected,hdata⟩ hpass
    rw [transfer_zero] at hpass
    rcases recvfromHelper_cases w fd bufPtr bufSize 0 0 0 with ⟨d,hd,heq⟩ | ⟨hnone,-⟩
    · have hsame : d=desc := Option.some.inj (hd.2.1.symm.trans hdesc)
      subst hsame
      have hrecv := hpass.of_bind
      rw [heq] at hrecv
      exact recvfrom_of_data hconnected hdata hproc hbufPtr hbufSize 0 0 hrecv
    · exact hnone ⟨desc,hreadable⟩
  unfold readTransfer
  unfold Fills at h
  cases ht : desc.type with
  | file => exact absurd ht hfile
  | pipe =>
    rw [ht] at h
    exact transportReceiveUserData_of_data h hproc hbase hlen
  | tcpSocket =>
    rw [ht] at h
    exact hsocket _ _ hbase hlen h
  | udpSocket =>
    rw [ht] at h
    exact hsocket _ _ hbase hlen h
  | _ =>
    rw [ht] at h
    exact h.elim

lemma idle_readTransfer (hdesc : w.legacy fd=some desc) (h : ¬Fills w fd desc) {buf : ℕ × ℕ}
    (hlen : 0<buf.2) : Idle id (readTransfer w fd desc 0 buf) := by
  have hsocket : ¬(Readable w fd desc ∧ Connected desc ∧ HasData desc) → Idle id (do
      let scr ← recvfromHelper (w.transfer 0) fd buf.1 buf.2 0 0 0
      pure (retval scr)) := by
    intro hnot proc
    rw [transfer_zero,wp_bind]
    have hidle : Idle retval (recvfromHelper w fd buf.1 buf.2 0 0 0) := by
      rcases recvfromHelper_cases w fd buf.1 buf.2 0 0 0 with ⟨d,hd,heq⟩ | ⟨-,errcode,herr,heq⟩
      · have hsame : d=desc := Option.some.inj (hd.2.1.symm.trans hdesc)
        subst hsame
        rw [heq]
        exact idle_recvfrom (fun hcd ↦ hnot ⟨hd,hcd⟩) hlen _ _ _
      · rw [heq]
        exact idle_pure herr
    exact wp_mono (hidle proc) fun scr t ht ↦ (wp_pure _ _ _).mpr ht
  unfold readTransfer
  unfold Fills at h
  cases ht : desc.type with
  | pipe =>
    rw [ht] at h
    exact idle_transportReceiveUserData h hlen _
  | tcpSocket =>
    rw [ht] at h
    exact hsocket h
  | udpSocket =>
    rw [ht] at h
    exact hsocket h
  | _ => exact idle_pure (by decide)

lemma passes_readvHelper_iff (w : World) (fd : ℤ) (iovPtr iovlen : ℕ) (posL posH : BitVec 64) :
    Passes (readvHelper w fd iovPtr iovlen posL posH) ⟨0,false⟩ ↔
      ¬∃ desc, ValidVec w fd iovPtr iovlen (vecOffset posL posH) desc ∧ Fills w fd desc := by
  by_cases hvalid : ∃ desc, ValidVec w fd iovPtr iovlen (vecOffset posL posH) desc
  · obtain ⟨desc,hdesc⟩ := hvalid
    have hiff : (¬∃ d, ValidVec w fd iovPtr iovlen (vecOffset posL posH) d ∧ Fills w fd d) ↔
        ¬Fills w fd desc := by
      refine not_congr ⟨?_,fun h ↦ ⟨desc,hdesc,h⟩⟩
      rintro ⟨d,hd,h⟩
      rw [Option.some.inj (hd.registered.symm.trans hdesc.registered)] at h
      exact h
    obtain ⟨buf,iov,hiov,hbase,hlen⟩ := hdesc.exists_first
    rw [hiff]
    unfold Passes readvHelper vecHelper
    rw [wp_bind,wp_of_eq (validateVecParams_of_valid hdesc),hiov]
    dsimp only
    have hheld : Held ⟨1,false⟩ := Nat.one_pos
    by_cases hfile : desc.type=.file
    · rw [if_pos hfile]
      refine iff_of_false (fun hpass ↦ ?_) (fun h ↦ h ?_)
      · have hfirst := ((wp_bind _ _ _ _).mp hpass)
        rw [List.forM_eq_forM,List.forM_cons,wp_bind,wp_processGetWriteablePtr] at hfirst
        exact absurd hfirst.2.1 hheld.ne'
      · unfold Fills
        rw [hfile]
        trivial
    · rw [if_neg hfile]
      constructor
      · intro hpass hfills
        rw [vecLoop,wp_bind,wp_bind] at hpass
        exact readTransfer_of_fills hdesc.registered hfile hfills hheld hbase hlen
          (wp_mono hpass fun _ _ _ ↦ trivial)
      · intro hfills
        rw [vecLoop,wp_bind,wp_bind]
        refine wp_mono (idle_readTransfer hdesc.registered hfills hlen _) fun result t ht ↦ ?_
        have hle : result ≤ 0 := ht.1
        rw [if_neg (not_lt.mpr hle),wp_ite]
        split_ifs <;> simp
  · refine iff_of_true ?_ fun ⟨d,hd,_⟩ ↦ hvalid ⟨d,hd⟩
    unfold Passes readvHelper vecHelper
    rw [wp_bind]
    refine wp_mono (validateVecParams_of_not_valid hvalid) ?_
    rintro - t ⟨errcode,rfl⟩
    exact (wp_pure _ _ _).mpr trivial

lemma keeps_vecLoop {transfer : ℕ → ℕ × ℕ → Handler ℤ} (h : ∀ i buf, Keeps Shared (transfer i buf))
    (i : ℕ) (iov : List (ℕ × ℕ)) (totalBytesWritten : ℕ) (result : ℤ) :
    Keeps Shared (vecLoop transfer i iov totalBytesWritten result) := by
  induction iov generalizing i totalBytesWritten result with
  | nil => exact Keeps.pure _ _
  | cons buf iov ih =>
    refine Keeps.bind (h i buf) fun result ↦ Keeps.ite (ih _ _ _) ?_
    exact Keeps.ite (Keeps.pure _ _) (Keeps.pure _ _)

lemma keeps_writeTransfer (w : World) (fd : ℤ) (desc : LegacyDescriptor) (i : ℕ) (buf : ℕ × ℕ) :
    Keeps Shared (writeTransfer w fd desc i buf) := by
  unfold writeTransfer
  split
  · exact keeps_transportSendUserData _ _ _
  · exact Keeps.bind (keeps_sendtoHelper _ _ _ _ _ _ _) fun _ ↦ Keeps.pure _ _
  · exact Keeps.bind (keeps_sendtoHelper _ _ _ _ _ _ _) fun _ ↦ Keeps.pure _ _
  · exact Keeps.pure _ _

lemma keeps_writevHelper (w : World) (fd : ℤ) (iovPtr iovlen : ℕ) (posL posH : BitVec 64) :
    Keeps Shared (writevHelper w fd iovPtr iovlen posL posH) := by
  unfold writevHelper vecHelper
  refine Keeps.bind (keeps_validateVecParams _ _ _ _ _) fun r ↦ ?_
  rcases r with errcode | ⟨desc,iov⟩
  · exact Keeps.pure _ _
  · refine Keeps.ite ?_ ?_
    · refine Keeps.bind (Keeps.forM fun _ ↦ keeps_processGetReadablePtr ()) fun _ ↦ ?_
      exact Keeps.bind (Keeps.pure _ _) fun _ ↦ Keeps.pure _ _
    · exact Keeps.bind (keeps_vecLoop (keeps_writeTransfer w fd desc) _ _ _ _) fun _ ↦ Keeps.pure _ _

end Vectors

/-! The other calls. -/

section Calls

variable {w : World}

lemma passes_of_keeps_shared {α : Type} {p : Handler α} (h : Keeps Shared p) :
    Passes p ⟨0,false⟩ := h.passes rfl

lemma passes_of_keeps_free {α : Type} {p : Handler α} (h : Keeps Free p) :
    Passes p ⟨0,false⟩ := h.passes rfl

lemma passes_pure {α : Type} (a : α) (proc : Process) : Passes (pure a) proc :=
  (wp_pure _ _ _).mpr trivial

lemma passes_recvfrom_iff {desc : LegacyDescriptor} (h : desc.type=.unixSocket) (bufPtr bufSize : ℕ)
    (flags : BitVec 32) (srcAddrPtr addrlenPtr : ℕ) :
    Passes (recvfrom w desc bufPtr bufSize flags srcAddrPtr addrlenPtr) ⟨0,false⟩ ↔
      ¬(srcAddrPtr ≠ 0 ∧ addrlenPtr ≠ 0 ∧ 0<bufSize ∧ 0<desc.channel.bufferLength) := by
  have hreceive : transportReceiveUserData desc bufPtr (sizeNeeded desc.type bufSize)=
      channelReceiveUserData desc.channel bufSize := by
    unfold transportReceiveUserData sizeNeeded
    rw [h]
  have hnot : ∀ c : Prop, ¬(desc.type=.tcpSocket ∧ c) := by
    rintro c ⟨ht,-⟩
    rw [h] at ht
    cases ht
  unfold Passes recvfrom
  by_cases haddr : srcAddrPtr ≠ 0 ∧ addrlenPtr=0
  · rw [if_pos haddr]
    exact iff_of_true (passes_pure _ _) fun hover ↦ hover.2.1 haddr.2
  · rw [if_neg haddr,if_neg (hnot _)]
    dsimp only
    rw [if_neg (hnot _),hreceive,wp_bind]
    by_cases hdata : 0<desc.channel.bufferLength ∧ 0<bufSize
    · unfold channelReceiveUserData
      rw [if_neg hdata.2.ne',if_neg hdata.1.ne',wp_bind,wp_processGetWriteablePtr,wp_pure]
      have hpos : (0 : ℤ)<((min bufSize desc.channel.bufferLength : ℕ) : ℤ) :=
        Int.natCast_pos.mpr (lt_min hdata.2 hdata.1)
      rw [if_neg fun hb ↦ by have := hb.1; unfold ewouldblock at this; omega]
      by_cases hsrc : srcAddrPtr=0
      · rw [if_neg fun hn ↦ hn.2 hsrc]
        exact iff_of_true ⟨rfl,rfl,(wp_pure _ _ _).mpr trivial⟩ fun hover ↦ hover.1 hsrc
      · have hlen : addrlenPtr ≠ 0 := fun hl ↦ haddr ⟨hsrc,hl⟩
        refine iff_of_false ?_ fun hover ↦ hover ⟨hsrc,hlen,hdata.2,hdata.1⟩
        rw [if_pos ⟨hpos,hsrc⟩]
        unfold getnameHelper
        rw [if_neg fun hnull ↦ hnull.elim hsrc hlen]
        rintro ⟨-,-,hname⟩
        rw [wp_bind,wp_bind,wp_processReadPtr] at hname
        exact absurd hname.1 (by decide)
    · refine iff_of_true ?_ fun hover ↦ hdata ⟨hover.2.2.2,hover.2.2.1⟩
      refine wp_mono (idle_channelReceiveUserData hdata _) fun result t ht ↦ ?_
      have hle : result ≤ 0 := ht.1
      rw [if_neg fun hn : 0<result ∧ _ ↦ absurd hn.1 (not_lt.mpr hle)]
      split_ifs <;> simp

lemma Readable.type {sockfd : ℤ} {desc : LegacyDescriptor} (h : Readable w sockfd desc) :
    (desc.type=.tcpSocket ∨ desc.type=.udpSocket) ∨ desc.type=.unixSocket := by
  rcases h.2.2 with ⟨-,hsocket⟩ | hwhen
  · unfold isSocket at hsocket
    simpa using hsocket
  · unfold readableWhenClosed at hwhen
    simp only [Bool.and_eq_true,beq_iff_eq] at hwhen
    exact Or.inl (Or.inl hwhen.1.1)

lemma passes_recvfromHelper_iff (w : World) (sockfd : ℤ) (bufPtr bufSize : ℕ) (flags : BitVec 32)
    (srcAddrPtr addrlenPtr : ℕ) :
    Passes (recvfromHelper w sockfd bufPtr bufSize flags srcAddrPtr addrlenPtr) ⟨0,false⟩ ↔
      ¬(srcAddrPtr ≠ 0 ∧ addrlenPtr ≠ 0 ∧ 0<bufSize ∧
        ∃ desc, Readable w sockfd desc ∧ desc.type=.unixSocket ∧ 0<desc.channel.bufferLength) := by
  rcases recvfromHelper_cases w sockfd bufPtr bufSize flags srcAddrPtr addrlenPtr with
    ⟨desc,hdesc,heq⟩ | ⟨hnone,errcode,-,heq⟩
  · rw [heq]
    have hsame : ∀ d, Readable w sockfd d → d=desc :=
      fun d hd ↦ Option.some.inj (hd.2.1.symm.trans hdesc.2.1)
    rcases hdesc.type with hinet | hunix
    · refine iff_of_true (passes_of_keeps_free (keeps_recvfrom hinet _ _ _ _ _)) ?_
      rintro ⟨-,-,-,d,hd,hunix,-⟩
      rw [hsame d hd] at hunix
      rw [hunix] at hinet
      exact hinet.elim nofun nofun
    · rw [passes_recvfrom_iff hunix]
      refine not_congr (and_congr_right fun _ ↦ and_congr_right fun _ ↦ and_congr_right fun _ ↦ ?_)
      constructor
      · exact fun hdata ↦ ⟨desc,hdesc,hunix,hdata⟩
      · rintro ⟨d,hd,-,hdata⟩
        rw [hsame d hd] at hdata
        exact hdata
  · rw [heq]
    exact iff_of_true (passes_pure _ _) fun hover ↦ hnone ⟨_,hover.2.2.2.choose_spec.1⟩

lemma passes_readHelper (w : World) (fd : ℤ) (bufPtr bufSize : ℕ) (offset : ℤ) :
    Passes (readHelper w fd bufPtr bufSize offset) ⟨0,false⟩ := by
  unfold readHelper
  cases w.legacy fd with
  | none => exact passes_pure _ _
  | some desc =>
    dsimp only
    split_ifs with hseek hsocket hclosed
    · exact passes_pure _ _
    · exact (passes_recvfromHelper_iff w fd bufPtr bufSize 0 0 0).mpr fun hover ↦ hover.1 rfl
    · exact passes_pure _ _
    · cases ht : desc.type with
      | pipe =>
        dsimp only
        unfold Passes transportReceiveUserData channelReceiveUserData
        rw [ht]
        dsimp only
        split_ifs <;> simp
      | _ =>
        unfold Passes
        simp

lemma keeps_writeHelper (w : World) (fd : ℤ) (bufPtr bufSize : ℕ) (offset : ℤ) :
    Keeps Shared (writeHelper w fd bufPtr bufSize offset) := by
  unfold writeHelper
  cases w.legacy fd with
  | none => exact Keeps.pure _ _
  | some desc =>
    refine Keeps.ite (Keeps.pure _ _) (Keeps.ite (keeps_sendtoHelper _ _ _ _ _ _ _) ?_)
    refine Keeps.ite (Keeps.pure _ _) ?_
    cases desc.type with
    | file | eventd =>
      refine Keeps.bind (keeps_processGetReadablePtr ()) fun _ ↦ ?_
      exact Keeps.bind (Keeps.pure _ _) fun _ ↦ Keeps.pure _ _
    | pipe => exact Keeps.bind (keeps_transportSendUserData _ _ _) fun _ ↦ Keeps.pure _ _
    | _ => exact Keeps.bind (Keeps.pure _ _) fun _ ↦ Keeps.pure _ _

lemma passes_unlessPosixFile {fd : ℤ} {handler : Handler SysCallReturn}
    (h : Passes handler ⟨0,false⟩) : Passes (unlessPosixFile w fd handler) ⟨0,false⟩ := by
  unfold unlessPosixFile
  split
  · exact passes_pure _ _
  · exact passes_pure _ _
  · exact h

lemma keeps_acceptHelper (w : World) (sockfd : ℤ) (addrPtr addrlenPtr : ℕ) (flags : BitVec 32) :
    Keeps Free (acceptHelper w sockfd addrPtr addrlenPtr flags) := by
  unfold acceptHelper
  refine Keeps.ite (Keeps.pure _ _) ?_
  cases validateTCPSocketHelper w sockfd with
  | error errcode => exact Keeps.pure _ _
  | ok desc =>
    refine Keeps.ite (Keeps.pure _ _) (Keeps.ite (Keeps.pure _ _) (Keeps.ite (Keeps.pure _ _) ?_))
    refine Keeps.ite (Keeps.pure _ _) (Keeps.ite ?_ (Keeps.pure _ _))
    exact Keeps.bind (keeps_getnameHelper _ _ _ _) fun _ ↦ Keeps.pure _ _

lemma keeps_bind (w : World) (sockfd : ℤ) (addrPtr addrlen : ℕ) :
    Keeps Shared (bind w sockfd addrPtr addrlen) := by
  unfold PluginPointers.bind
  cases validateSocketHelper w sockfd with
  | error errcode => exact Keeps.pure _ _
  | ok desc =>
    refine Keeps.ite (Keeps.pure _ _) (Keeps.ite (Keeps.pure _ _) (Keeps.ite (Keeps.pure _ _) ?_))
    refine Keeps.bind (keeps_processGetReadablePtr _) fun _ ↦ ?_
    exact Keeps.ite (Keeps.pure _ _) (Keeps.pure _ _)

lemma keeps_connect (w : World) (sockfd : ℤ) (addrPtr addrlen : ℕ) :
    Keeps Shared (connect w sockfd addrPtr addrlen) := by
  unfold connect
  cases validateSocketHelper w sockfd with
  | error errcode => exact Keeps.pure _ _
  | ok desc =>
    refine Keeps.ite (Keeps.pure _ _) (Keeps.ite (Keeps.pure _ _) ?_)
    refine Keeps.bind (keeps_processGetReadablePtr _) fun _ ↦ ?_
    refine Keeps.ite (Keeps.pure _ _) (Keeps.ite (Keeps.pure _ _) (Keeps.ite (Keeps.pure _ _) ?_))
    exact Keeps.ite (Keeps.pure _ _) (Keeps.pure _ _)

lemma keeps_getpeername (w : World) (sockfd : ℤ) (addrPtr addrlenPtr : ℕ) :
    Keeps Free (getpeername w sockfd addrPtr addrlenPtr) := by
  unfold getpeername
  cases validateSocketHelper w sockfd with
  | error errcode => exact Keeps.pure _ _
  | ok desc => exact Keeps.ite (Keeps.pure _ _) (keeps_getnameHelper _ _ _ _)

lemma keeps_getsockname (w : World) (sockfd : ℤ) (addrPtr addrlenPtr : ℕ) :
    Keeps Free (getsockname w sockfd addrPtr addrlenPtr) := by
  unfold getsockname
  cases validateSocketHelper w sockfd with
  | error errcode => exact Keeps.pure _ _
  | ok desc => exact keeps_getnameHelper _ _ _ _

lemma passes_getsockopt (w : World) (sockfd level optname : ℤ) (optvalPtr optlenPtr : ℕ) :
    Passes (getsockopt w sockfd level optname optvalPtr optlenPtr) ⟨0,false⟩ := by
  unfold getsockopt Passes
  cases validateSocketHelper w sockfd with
  | error errcode => exact passes_pure _ _
  | ok desc =>
    dsimp only
    by_cases hnull : optlenPtr=0
    · rw [if_pos hnull]
      exact passes_pure _ _
    · rw [if_neg hnull,wp_bind,wp_processReadPtr]
      refine ⟨rfl,?_⟩
      split_ifs <;> simp

lemma passes_listen (w : World) (sockfd : ℤ) : Passes (listen w sockfd) ⟨0,false⟩ := by
  unfold listen
  cases validateTCPSocketHelper w sockfd with
  | error errcode => exact passes_pure _ _
  | ok desc =>
    dsimp only
    split_ifs <;> exact passes_pure _ _

lemma keeps_setsockopt (w : World) (sockfd level optname : ℤ) (optvalPtr optlen : ℕ) :
    Keeps Shared (setsockopt w sockfd level optname optvalPtr optlen) := by
  have hhelper : Keeps Shared (setSocketOptHelper optname optlen) := by
    refine Keeps.ite (Keeps.pure _ _) (Keeps.ite ?_ (Keeps.pure _ _))
    exact Keeps.bind (keeps_processGetReadablePtr ()) fun _ ↦ Keeps.pure _ _
  unfold setsockopt
  cases validateSocketHelper w sockfd with
  | error errcode => exact Keeps.pure _ _
  | ok desc =>
    refine Keeps.ite (Keeps.pure _ _) (Keeps.ite (Keeps.pure _ _) (Keeps.ite ?_ ?_))
    · exact Keeps.bind hhelper fun _ ↦ Keeps.pure _ _
    · exact Keeps.bind (Keeps.pure _ _) fun _ ↦ Keeps.pure _ _

lemma passes_shutdown (w : World) (sockfd how : ℤ) : Passes (shutdown w sockfd how) ⟨0,false⟩ := by
  unfold shutdown
  split_ifs
  · exact passes_pure _ _
  · cases validateSocketHelper w sockfd with
    | error errcode => exact passes_pure _ _
    | ok desc =>
      dsimp only
      split_ifs <;> exact passes_pure _ _

lemma passes_pollHelper (w : World) (timeout : Option (ℤ × ℤ)) :
    Passes (pollHelper w timeout) ⟨0,false⟩ := by
  unfold pollHelper Passes
  rw [wp_bind,wp_processGetMutablePtr]
  refine ⟨rfl,rfl,?_⟩
  split_ifs <;> exact passes_pure _ _

/-- The timeout is copied, so that no pointer to it stands in the way of the descriptors. -/
lemma passes_ppoll (w : World) (fdsPtr nfds tsTimeoutPtr : ℕ) :
    Passes (ppoll w fdsPtr nfds tsTimeoutPtr) ⟨0,false⟩ := by
  unfold ppoll
  split_ifs
  · exact passes_pure _ _
  · exact passes_pure _ _
  · exact passes_pollHelper _ _
  · unfold Passes
    rw [wp_bind,wp_processReadPtr]
    refine ⟨rfl,?_⟩
    split_ifs
    · exact passes_pure _ _
    · exact passes_pollHelper _ _

lemma passes_epollCtl (w : World) (epfd op fd : ℤ) (eventPtr : ℕ) :
    Passes (epollCtl w epfd op fd eventPtr) ⟨0,false⟩ := by
  unfold epollCtl Passes
  cases w.descriptors fd with
  | none =>
    dsimp only
    split_ifs <;> simp
  | some child =>
    dsimp only
    split_ifs <;> simp

lemma passes_epollWait (w : World) (epfd : ℤ) (eventsPtr : ℕ) (maxevents timeoutMs : ℤ) :
    Passes (epollWait w epfd eventsPtr maxevents timeoutMs) ⟨0,false⟩ := by
  unfold epollWait Passes
  split_ifs <;> simp

lemma keeps_futexWait (w : World) (futexVPtr : ℕ) (expectedVal : BitVec 32) (hasTimeout : Bool) :
    Keeps Shared (futexWait w futexVPtr expectedVal hasTimeout) := by
  refine Keeps.bind (keeps_processGetReadablePtr _) fun _ ↦ ?_
  exact Keeps.ite (Keeps.pure _ _) (Keeps.ite (Keeps.pure _ _) (Keeps.pure _ _))

lemma keeps_futex (w : World) (uaddrptr : ℕ) (futexOp val : BitVec 32) (timeoutptr : ℕ)
    (val3 : BitVec 32) : Keeps Shared (futex w uaddrptr futexOp val timeoutptr val3) := by
  refine Keeps.ite (Keeps.pure _ _) (Keeps.ite ?_ (Keeps.ite (Keeps.pure _ _) (Keeps.pure _ _)))
  refine Keeps.ite ?_ (keeps_futexWait _ _ _ _)
  refine Keeps.bind (keeps_processGetReadablePtr _) fun _ ↦ ?_
  exact Keeps.ite (Keeps.pure _ _) (keeps_futexWait _ _ _ _)

lemma keeps_nanosleep (w : World) (reqPtr : ℕ) : Keeps Shared (nanosleep w reqPtr) := by
  refine Keeps.ite (Keeps.pure _ _) (Keeps.bind (keeps_processGetReadablePtr _) fun _ ↦ ?_)
  exact Keeps.ite (Keeps.pure _ _) (Keeps.ite (Keeps.pure _ _) (Keeps.pure _ _))

end Calls

/-- The vector of a vectored read is held while its buffers are filled: always for a file, and for a
pipe or a socket as soon as there is something to read. An end of a pair of sockets holds the buffer
while the address of the sender is asked for. -/
def Overlaps (w : World) : Call → Prop
  | .readv fd iovPtr iovlen => ∃ desc, ValidVec w fd iovPtr iovlen 0 desc ∧ Fills w fd desc
  | .preadv fd iovPtr iovlen posL posH | .preadv2 fd iovPtr iovlen posL posH _ =>
    ∃ desc, ValidVec w fd iovPtr iovlen (vecOffset posL posH) desc ∧ Fills w fd desc
  | .recvfrom sockfd _ bufSize _ srcAddrPtr addrlenPtr =>
    srcAddrPtr ≠ 0 ∧ addrlenPtr ≠ 0 ∧ 0<bufSize ∧
      ∃ desc, Readable w sockfd desc ∧ desc.type=.unixSocket ∧ 0<desc.channel.bufferLength
  | _ => False

lemma passes_handle_iff (w : World) (call : Call) :
    Passes (handle w call) ⟨0,false⟩ ↔ ¬Overlaps w call := by
  have htrue : ∀ {p : Handler SysCallReturn}, Passes p ⟨0,false⟩ →
      (Passes p ⟨0,false⟩ ↔ ¬False) := fun h ↦ iff_of_true h id
  cases call with
  | read fd bufPtr bufSize => exact htrue (passes_unlessPosixFile (passes_readHelper _ _ _ _ _))
  | pread64 fd bufPtr bufSize offset =>
    exact htrue (passes_unlessPosixFile (passes_readHelper _ _ _ _ _))
  | write fd bufPtr bufSize =>
    exact htrue (passes_unlessPosixFile (passes_of_keeps_shared (keeps_writeHelper _ _ _ _ _)))
  | pwrite64 fd bufPtr bufSize offset =>
    exact htrue (passes_unlessPosixFile (passes_of_keeps_shared (keeps_writeHelper _ _ _ _ _)))
  | readv fd iovPtr iovlen =>
    have h := passes_readvHelper_iff w fd iovPtr iovlen 0 0
    rwa [show vecOffset 0 0=0 from rfl] at h
  | preadv fd iovPtr iovlen posL posH => exact passes_readvHelper_iff _ _ _ _ _ _
  | preadv2 fd iovPtr iovlen posL posH flags => exact passes_readvHelper_iff _ _ _ _ _ _
  | writev fd iovPtr iovlen =>
    exact htrue (passes_of_keeps_shared (keeps_writevHelper _ _ _ _ _ _))
  | pwritev fd iovPtr iovlen posL posH =>
    exact htrue (passes_of_keeps_shared (keeps_writevHelper _ _ _ _ _ _))
  | pwritev2 fd iovPtr iovlen posL posH flags =>
    exact htrue (passes_of_keeps_shared (keeps_writevHelper _ _ _ _ _ _))
  | accept sockfd addrPtr addrlenPtr =>
    exact htrue (passes_of_keeps_free (keeps_acceptHelper _ _ _ _ _))
  | accept4 sockfd addrPtr addrlenPtr flags =>
    exact htrue (passes_of_keeps_free (keeps_acceptHelper _ _ _ _ _))
  | bind sockfd addrPtr addrlen => exact htrue (passes_of_keeps_shared (keeps_bind _ _ _ _))
  | connect sockfd addrPtr addrlen => exact htrue (passes_of_keeps_shared (keeps_connect _ _ _ _))
  | getpeername sockfd addrPtr addrlenPtr =>
    exact htrue (passes_of_keeps_free (keeps_getpeername _ _ _ _))
  | getsockname sockfd addrPtr addrlenPtr =>
    exact htrue (passes_of_keeps_free (keeps_getsockname _ _ _ _))
  | getsockopt sockfd level optname optvalPtr optlenPtr =>
    exact htrue (passes_getsockopt _ _ _ _ _ _)
  | listen sockfd backlog => exact htrue (passes_listen _ _)
  | recvfrom sockfd bufPtr bufSize flags srcAddrPtr addrlenPtr =>
    exact passes_recvfromHelper_iff _ _ _ _ _ _ _
  | sendto sockfd bufPtr bufSize flags destAddrPtr addrlen =>
    exact htrue (passes_of_keeps_shared (keeps_sendtoHelper _ _ _ _ _ _ _))
  | setsockopt sockfd level optname optvalPtr optlen =>
    exact htrue (passes_of_keeps_shared (keeps_setsockopt _ _ _ _ _ _))
  | shutdown sockfd how => exact htrue (passes_shutdown _ _ _)
  | socket domain type protocol =>
    refine htrue ?_
    change Passes (socket w domain type protocol) _
    unfold socket
    dsimp only
    split_ifs <;> exact passes_pure _ _
  | socketpair domain type protocol fdsPtr =>
    refine htrue ?_
    change Passes (socketpair domain type protocol fdsPtr) _
    unfold socketpair Passes
    dsimp only
    split_ifs <;> simp
  | poll fdsPtr nfds timeoutMillis =>
    refine htrue ?_
    change Passes (poll w fdsPtr nfds timeoutMillis) _
    unfold poll
    split_ifs
    · exact passes_pure _ _
    · exact passes_pure _ _
    · exact passes_pollHelper _ _
  | ppoll fdsPtr nfds tsTimeoutPtr => exact htrue (passes_ppoll _ _ _ _)
  | epollCreate size =>
    exact htrue (passes_of_keeps_free (Keeps.ite (Keeps.pure _ _) (Keeps.pure _ _)))
  | epollCreate1 flags =>
    exact htrue (passes_of_keeps_free (Keeps.ite (Keeps.pure _ _) (Keeps.pure _ _)))
  | epollCtl epfd op fd eventPtr => exact htrue (passes_epollCtl _ _ _ _ _)
  | epollWait epfd eventsPtr maxevents timeoutMs => exact htrue (passes_epollWait _ _ _ _ _)
  | futex uaddrptr futexOp val timeoutptr val3 =>
    exact htrue (passes_of_keeps_shared (keeps_futex _ _ _ _ _ _))
  | getRobustList => exact htrue (passes_pure _ _)
  | setRobustList => exact htrue (passes_pure _ _)
  | nanosleep reqPtr => exact htrue (passes_of_keeps_shared (keeps_nanosleep _ _))
  | clockGettime resPtr =>
    refine htrue ?_
    change Passes (clockGettime resPtr) _
    unfold clockGettime Passes
    split_ifs <;> simp
  | time tlocPtr =>
    refine htrue ?_
    change Passes (time w tlocPtr) _
    unfold time Passes
    dsimp only
    split_ifs <;> simp
  | gettimeofday tvPtr =>
    refine htrue ?_
    change Passes (gettimeofday tvPtr) _
    unfold gettimeofday Passes
    dsimp only
    split_ifs <;> simp

/-! The calls of a process. -/

lemma passes_makeSyscall_iff (w : World) (call : Call) (proc : Process) :
    Passes (makeSyscall w call) proc ↔ Passes (handle w call) proc := by
  constructor
  · exact fun h ↦ h.of_bind
  · intro h
    unfold makeSyscall Passes
    rw [wp_bind]
    refine wp_mono h fun scr t _ ↦ ?_
    dsimp only
    split_ifs <;> simp

/-- After each call everything is flushed, so that the next one begins with nothing outstanding. -/
lemma passes_makeSyscalls_iff (calls : List (World × Call)) :
    Passes (makeSyscalls calls) ⟨0,false⟩ ↔ ∀ x ∈ calls, ¬Overlaps x.1 x.2 := by
  induction calls with
  | nil => exact iff_of_true (passes_pure _ _) fun x hx ↦ absurd hx List.not_mem_nil
  | cons x calls ih =>
    obtain ⟨w,call⟩ := x
    rw [List.forall_mem_cons,← ih,← passes_handle_iff,← passes_makeSyscall_iff]
    have hflush : ∀ t, wp (processFlushPtrs >>= fun _ ↦ makeSyscalls calls) (fun _ _ ↦ True) t ↔
        Passes (makeSyscalls calls) ⟨0,false⟩ := by
      intro t
      rw [wp_bind,wp_processFlushPtrs]
      rfl
    change wp (makeSyscall w call >>= fun _ ↦ processFlushPtrs >>= fun _ ↦ makeSyscalls calls) _ _ ↔ _
    rw [wp_bind]
    constructor
    · rintro ⟨scr,t,he,hrest⟩
      exact ⟨⟨scr,t,he,trivial⟩,(hflush t).mp hrest⟩
    · rintro ⟨hfirst,hrest⟩
      exact wp_mono hfirst fun _ t _ ↦ (hflush t).mpr hrest

/-- Of the calls of a process, in whatever they find, no assertion on its pointers fails if and only if
none of them overlaps. -/
theorem passes_resume_iff (calls : List (World × Call)) (proc : Process) :
    Passes (resume calls) proc ↔ ∀ x ∈ calls, ¬Overlaps x.1 x.2 := by
  rw [← passes_makeSyscalls_iff]
  unfold resume Passes
  rw [wp_bind,wp_processFlushPtrs]

/-- A regular file that an operation reads 4 bytes from. -/
def regularFile : LegacyDescriptor where
  type := .file
  closed := false
  nonblocking := false
  channel := ⟨0,none⟩
  tcp := ⟨1,none,0,[],0,false,false,false,0,false,false⟩
  udp := ⟨[],0⟩
  io := 4
  isBound := false
  hasPeerName := false

/-- The process has the file open as its descriptor 3, and one buffer of 4 bytes. -/
def openFile : World where
  descriptors fd := if fd=3 then some (.legacy regularFile) else none
  later _ desc := desc
  u32 _ := 0
  iovec _ _ := (0x2000,4)
  timespec _ := (0,0)
  sockaddr _ := ⟨0,0,0⟩
  wasBlocked := false
  acceptServerPeer _ := (-ewouldblock,0)
  bindHelper _ := 0
  isFamilySupported _ _ := true
  isRoutable _ := true
  connectToPeer _ := 0
  peerName _ := (0,0)
  randomFreePort := 0
  shutdown _ _ := 0
  registered := 4
  pollEvents := 0
  epollControl := 0
  epollNumReadyEvents _ := 0
  futexWoken := 0
  timeoutExpired := false
  seconds := 0

/-- A vectored read of one buffer from a file asks for the buffer while the vector is readable. -/
theorem readv_file_fails : ¬Passes (resume [(openFile,.readv 3 0x1000 1)]) ⟨0,false⟩ := by
  have hfail : resume [(openFile,.readv 3 0x1000 1)] ⟨0,false⟩=none := by decide
  rintro ⟨a,t,he,-⟩
  rw [hfail] at he
  cases he

end Phantom.Syscall.PluginPointers
