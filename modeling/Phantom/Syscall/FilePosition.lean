import Mathlib.Algebra.GroupWithZero.Nat
import Mathlib.Data.Int.Notation
import Mathlib.Data.List.Basic
import Mathlib.Order.Lattice
import Mathlib.Order.Nat
import Mathlib.Tactic.Common

/-! The system calls that transfer data from and to an os-backed regular file, `unistd.c`, `uio.c`
and `file.c`, against what POSIX specifies for the same calls. -/
namespace Phantom.Syscall.FilePosition

def syscallIoBufsize : ℕ := 1024*1024*10

def uioMaxiov : ℕ := 1024

def einval : ℤ := 22

/-- A regular file that is open in the host. -/
@[ext] structure File where
  contents : List UInt8
  position : ℕ
  deriving DecidableEq, Repr

/-- What a call returns, with the bytes that it has put into the buffers of the caller. -/
structure Result where
  rv : ℤ
  bytes : List UInt8
  deriving DecidableEq, Repr

inductive Whence where
  | set
  | cur
  | fromEnd
  deriving DecidableEq, Repr

/-- A system call: the sizes of the buffers to read into, or the buffers to write. -/
inductive Call where
  | read (size : ℕ)
  | write (data : List UInt8)
  | readv (sizes : List ℕ)
  | writev (data : List (List UInt8))
  | pread64 (size offset : ℕ)
  | pwrite64 (data : List UInt8) (offset : ℕ)
  | preadv (sizes : List ℕ) (offset : ℕ)
  | pwritev (data : List (List UInt8)) (offset : ℕ)
  | lseek (offset : ℕ) (whence : Whence)
  deriving DecidableEq, Repr

/-- The buffers are not empty, and there are at least one and at most `UIO_MAXIOV` of them. -/
def Call.Valid : Call → Prop
  | .read size | .pread64 size _ => 0<size
  | .write data | .pwrite64 data _ => data ≠ []
  | .readv sizes | .preadv sizes _ =>
    sizes ≠ [] ∧ sizes.length ≤ uioMaxiov ∧ ∀ n ∈ sizes, 0<n
  | .writev data | .pwritev data _ =>
    data ≠ [] ∧ data.length ≤ uioMaxiov ∧ ∀ d ∈ data, d ≠ []
  | .lseek _ _ => True

namespace File

/-- The bytes at an offset, as far as the file goes. -/
def bytesAt (f : File) (offset size : ℕ) : List UInt8 := (f.contents.drop offset).take size

/-- The contents with bytes put at an offset; a gap behind the end is filled with zeros. -/
def overwrite (f : File) (offset : ℕ) (data : List UInt8) : List UInt8 :=
  (f.contents++List.replicate (offset-f.contents.length) 0).take offset++data++
    f.contents.drop (offset+data.length)

/-- The calls of the host: `read`, `pread`, `preadv2` without flags, `write`, `pwrite`, `pwritev2`
without flags, and `lseek`. -/
def osRead (f : File) (size : ℕ) : Result × File :=
  let bytes := f.bytesAt f.position size
  (⟨bytes.length,bytes⟩,{f with position := f.position+bytes.length})

def osPread (f : File) (size offset : ℕ) : Result × File :=
  let bytes := f.bytesAt offset size
  (⟨bytes.length,bytes⟩,f)

def osPreadv (f : File) (sizes : List ℕ) (offset : ℕ) : Result × File := f.osPread sizes.sum offset

def osWrite (f : File) (data : List UInt8) : Result × File :=
  (⟨data.length,[]⟩,⟨f.overwrite f.position data,f.position+data.length⟩)

def osPwrite (f : File) (data : List UInt8) (offset : ℕ) : Result × File :=
  (⟨data.length,[]⟩,{f with contents := f.overwrite offset data})

def osPwritev (f : File) (data : List (List UInt8)) (offset : ℕ) : Result × File :=
  f.osPwrite data.flatten offset

/-- The position that `lseek` sets. -/
def seek (f : File) (offset : ℕ) : Whence → ℕ
  | .set => offset
  | .cur => f.position+offset
  | .fromEnd => f.contents.length+offset

def osLseek (f : File) (offset : ℕ) (whence : Whence) : Result × File :=
  (⟨f.seek offset whence,[]⟩,{f with position := f.seek offset whence})

/-- `_syscallhandler_readHelper` for a file. -/
def readHelper (f : File) (bufSize offset : ℕ) : Result × File :=
  let sizeNeeded := min bufSize syscallIoBufsize
  if offset=0 then f.osRead sizeNeeded else f.osPread sizeNeeded offset

/-- `_syscallhandler_writeHelper` for a file. -/
def writeHelper (f : File) (data : List UInt8) (offset : ℕ) : Result × File :=
  let sizeNeeded := min data.length syscallIoBufsize
  if offset=0 then f.osWrite (data.take sizeNeeded) else f.osPwrite (data.take sizeNeeded) offset

/-- `_syscallhandler_validateVecParams` for accessible memory, on the sizes of the buffers; `none`
if the transfer is to be made. -/
def validateVecParams (sizes : List ℕ) : Option ℤ :=
  if sizes.length=0 then some 0
  else if uioMaxiov<sizes.length then some (-einval)
  else if 0 ∈ sizes then some (-einval)
  else none

/-- The offset that the vectored calls compute from their two words. -/
def vecOffset (posL posH : BitVec 64) : ℕ := ((posH <<< 32) &&& posL).toNat

/-- `_syscallhandler_readvHelper` for a file. -/
def readvHelper (f : File) (sizes : List ℕ) (posL posH : BitVec 64) : Result × File :=
  match validateVecParams sizes with
  | some errcode => (⟨errcode,[]⟩,f)
  | none => f.osPreadv sizes (vecOffset posL posH)

/-- `_syscallhandler_writevHelper` for a file. -/
def writevHelper (f : File) (data : List (List UInt8)) (posL posH : BitVec 64) : Result × File :=
  match validateVecParams (data.map List.length) with
  | some errcode => (⟨errcode,[]⟩,f)
  | none => f.osPwritev data (vecOffset posL posH)

/-- The handlers of the system calls. The positioned vectored calls get the whole offset in the low
word. -/
def syscall (f : File) : Call → Result × File
  | .read size => f.readHelper size 0
  | .write data => f.writeHelper data 0
  | .readv sizes => f.readvHelper sizes 0 0
  | .writev data => f.writevHelper data 0 0
  | .pread64 size offset => f.readHelper size offset
  | .pwrite64 data offset => f.writeHelper data offset
  | .preadv sizes offset => f.readvHelper sizes (BitVec.ofNat 64 offset) 0
  | .pwritev data offset => f.writevHelper data (BitVec.ofNat 64 offset) 0
  | .lseek offset whence => f.osLseek offset whence

/-- The results of a sequence of calls, and the file after them. -/
def syscalls (f : File) : List Call → List Result × File
  | [] => ([],f)
  | c::cs =>
    let (result,f') := f.syscall c
    let (results,f'') := f'.syscalls cs
    (result::results,f'')

end File

/-- A transfer may be short, but it is empty only if there is nothing to transfer. -/
def Transfers (k available : ℕ) : Prop := k ≤ available ∧ (0<available → 0<k)

/-- A read at an offset. -/
def ReadsAt (f : File) (offset size : ℕ) (r : Result) : Prop :=
  ∃ k, Transfers k (f.bytesAt offset size).length ∧ r=⟨k,f.bytesAt offset k⟩

/-- A write at an offset, with the contents after it. -/
def WritesAt (f : File) (offset : ℕ) (data : List UInt8) (r : Result) (contents : List UInt8) :
    Prop :=
  ∃ k, Transfers k data.length ∧ r=⟨k,[]⟩ ∧ contents=f.overwrite offset (data.take k)

/-- What POSIX specifies: the unpositioned calls transfer at the position and advance it, the
positioned ones transfer at the offset and leave the position. -/
def Posix (f : File) : Call → Result → File → Prop
  | .read size, r, f' =>
    ReadsAt f f.position size r ∧ f'.contents=f.contents ∧ f'.position=f.position+r.rv.toNat
  | .write data, r, f' =>
    WritesAt f f.position data r f'.contents ∧ f'.position=f.position+r.rv.toNat
  | .readv sizes, r, f' =>
    ReadsAt f f.position sizes.sum r ∧ f'.contents=f.contents ∧
      f'.position=f.position+r.rv.toNat
  | .writev data, r, f' =>
    WritesAt f f.position data.flatten r f'.contents ∧ f'.position=f.position+r.rv.toNat
  | .pread64 size offset, r, f' => ReadsAt f offset size r ∧ f'=f
  | .pwrite64 data offset, r, f' =>
    WritesAt f offset data r f'.contents ∧ f'.position=f.position
  | .preadv sizes offset, r, f' => ReadsAt f offset sizes.sum r ∧ f'=f
  | .pwritev data offset, r, f' =>
    WritesAt f offset data.flatten r f'.contents ∧ f'.position=f.position
  | .lseek offset whence, r, f' =>
    r=⟨f.seek offset whence,[]⟩ ∧ f'=⟨f.contents,f.seek offset whence⟩

/-- A sequence of calls that POSIX allows, with its results and the file after it. -/
inductive PosixRun : File → List Call → List Result → File → Prop
  | nil (f : File) : PosixRun f [] [] f
  | cons {f f' f'' : File} {c : Call} {cs : List Call} {r : Result} {rs : List Result}
      (h : Posix f c r f') (hs : PosixRun f' cs rs f'') : PosixRun f (c::cs) (r::rs) f''

/-- Every sequence of the calls, as far as it goes, has the results, the contents and the position
of the POSIX model. -/
def Agrees (f : File) (calls : List Call) : Prop :=
  ∀ cs, cs <+: calls → PosixRun f cs (f.syscalls cs).1 (f.syscalls cs).2

/-- When a call acts at the right place. -/
def Call.Safe (f : File) : Call → Prop
  | .read _ | .write _ | .lseek _ _ => True
  | .pread64 _ offset => offset ≠ 0 ∨ f.contents=[]
  | .pwrite64 _ offset => offset ≠ 0
  | .readv _ => f.contents=[]
  | .writev _ => False
  | .preadv sizes offset => f.bytesAt 0 sizes.sum <+: f.contents.drop offset
  | .pwritev data offset => f.overwrite 0 data.flatten=f.overwrite offset data.flatten

/-- Every call of a sequence acts at the right place, in the file that it finds. -/
def SafeAll : File → List Call → Prop
  | _, [] => True
  | f, c::cs => c.Safe f ∧ SafeAll (f.syscall c).2 cs

variable {f f' : File}

lemma bytesAt_length (f : File) (offset size : ℕ) :
    (f.bytesAt offset size).length=min size (f.contents.length-offset) := by
  rw [File.bytesAt,List.length_take,List.length_drop]

lemma bytesAt_bytesAt_length (f : File) (offset size : ℕ) :
    f.bytesAt offset (f.bytesAt offset size).length=f.bytesAt offset size := by
  unfold File.bytesAt
  rw [List.length_take,← List.take_eq_take_min]

lemma readsAt_bytesAt (f : File) (offset : ℕ) {m size : ℕ} (hle : m ≤ size) (hpos : 0 < m) :
    ReadsAt f offset size ⟨(f.bytesAt offset m).length,f.bytesAt offset m⟩ := by
  refine ⟨(f.bytesAt offset m).length,⟨?_,?_⟩,by rw [bytesAt_bytesAt_length]⟩
  · rw [bytesAt_length,bytesAt_length]
    omega
  · rw [bytesAt_length,bytesAt_length]
    omega

lemma writesAt_take (f : File) (offset : ℕ) {data : List UInt8} {m : ℕ} (hle : m ≤ data.length)
    (hpos : 0 < m) :
    WritesAt f offset data ⟨(data.take m).length,[]⟩ (f.overwrite offset (data.take m)) := by
  rw [List.length_take_of_le hle]
  exact ⟨m,⟨hle,fun _ ↦ hpos⟩,rfl,rfl⟩

lemma ReadsAt.eof {offset size : ℕ} {r : Result} (h : ReadsAt f offset size r) (hrv : r.rv=0)
    (hsize : 0<size) : f.contents.length ≤ offset := by
  obtain ⟨k,hk,rfl⟩ := h
  have hk0 : k=0 := Int.natCast_eq_zero.mp hrv
  have := hk.2
  rw [bytesAt_length] at this
  omega

lemma readsAt_iff_isPrefix (offset : ℕ) {size : ℕ} (hsize : 0<size) :
    ReadsAt f offset size ⟨(f.bytesAt 0 size).length,f.bytesAt 0 size⟩ ↔
      f.bytesAt 0 size <+: f.contents.drop offset := by
  constructor
  · rintro ⟨k,-,hr⟩
    rw [(Result.mk.inj hr).2]
    exact List.take_prefix k _
  · intro h
    have hlen := h.length_le
    rw [List.length_drop,bytesAt_length] at hlen
    refine ⟨(f.bytesAt 0 size).length,⟨?_,?_⟩,?_⟩
    · rw [bytesAt_length,bytesAt_length]
      omega
    · rw [bytesAt_length,bytesAt_length]
      omega
    · rw [File.bytesAt.eq_def f offset,← List.prefix_iff_eq_take.mp h]

lemma vecOffset_zero (posL : BitVec 64) : File.vecOffset posL 0=0 := by
  simp [File.vecOffset]

lemma validateVecParams_of_valid {sizes : List ℕ} (hne : sizes ≠ [])
    (hlen : sizes.length ≤ uioMaxiov) (hpos : ∀ n ∈ sizes, 0<n) :
    File.validateVecParams sizes=none := by
  unfold File.validateVecParams
  rw [if_neg (by simpa using hne),if_neg (not_lt.mpr hlen)]
  exact if_neg fun h0 ↦ absurd (hpos 0 h0) (lt_irrefl 0)

lemma sum_pos_of_valid {sizes : List ℕ} (hne : sizes ≠ []) (hpos : ∀ n ∈ sizes, 0<n) :
    0<sizes.sum := by
  cases sizes with
  | nil => exact absurd rfl hne
  | cons n sizes =>
    rw [List.sum_cons]
    have := hpos n List.mem_cons_self
    omega

lemma readvHelper_eq (f : File) {sizes : List ℕ} (hne : sizes ≠ [])
    (hlen : sizes.length ≤ uioMaxiov) (hpos : ∀ n ∈ sizes, 0<n) (posL : BitVec 64) :
    f.readvHelper sizes posL 0=f.osPread sizes.sum 0 := by
  rw [File.readvHelper,validateVecParams_of_valid hne hlen hpos,vecOffset_zero]
  rfl

lemma writevHelper_eq (f : File) {data : List (List UInt8)} (hne : data ≠ [])
    (hlen : data.length ≤ uioMaxiov) (hpos : ∀ d ∈ data, d ≠ []) (posL : BitVec 64) :
    f.writevHelper data posL 0=f.osPwrite data.flatten 0 := by
  have hvalid : File.validateVecParams (data.map List.length)=none := by
    apply validateVecParams_of_valid
    · simpa using hne
    · rwa [List.length_map]
    · intro n hn
      obtain ⟨d,hd,rfl⟩ := List.mem_map.mp hn
      exact List.length_pos_of_ne_nil (hpos d hd)
  rw [File.writevHelper,hvalid,vecOffset_zero]
  rfl

lemma flatten_pos_of_valid {data : List (List UInt8)} (hne : data ≠ [])
    (hpos : ∀ d ∈ data, d ≠ []) : 0<data.flatten.length := by
  rw [List.length_flatten]
  apply sum_pos_of_valid
  · simpa using hne
  · intro n hn
    obtain ⟨d,hd,rfl⟩ := List.mem_map.mp hn
    exact List.length_pos_of_ne_nil (hpos d hd)

lemma min_syscallIoBufsize_pos {n : ℕ} (h : 0<n) : 0 < min n syscallIoBufsize :=
  lt_min h (by decide)

lemma posix_osRead (f : File) {m size : ℕ} (hle : m ≤ size) (hpos : 0 < m) :
    ReadsAt f f.position size (f.osRead m).1 ∧ (f.osRead m).2.contents=f.contents ∧
      (f.osRead m).2.position=f.position+(f.osRead m).1.rv.toNat :=
  ⟨readsAt_bytesAt f f.position hle hpos,rfl,rfl⟩

lemma posix_osWrite (f : File) {data : List UInt8} {m : ℕ} (hle : m ≤ data.length)
    (hpos : 0 < m) :
    WritesAt f f.position data (f.osWrite (data.take m)).1 (f.osWrite (data.take m)).2.contents ∧
      (f.osWrite (data.take m)).2.position=
        f.position+(f.osWrite (data.take m)).1.rv.toNat :=
  ⟨writesAt_take f f.position hle hpos,rfl⟩

lemma osRead_pread_iff (f : File) {m size : ℕ} (hle : m ≤ size) (hpos : 0 < m) :
    ReadsAt f 0 size (f.osRead m).1 ∧ (f.osRead m).2=f ↔ f.contents=[] := by
  constructor
  · rintro ⟨hr,hf⟩
    have hmove : f.position+(f.bytesAt f.position m).length=f.position := congrArg File.position hf
    have hrv : (f.osRead m).1.rv=0 := by
      change ((f.bytesAt f.position m).length : ℤ)=0
      omega
    exact List.eq_nil_of_length_eq_zero (Nat.le_zero.mp (hr.eof hrv (by omega)))
  · intro hnil
    obtain ⟨contents,position⟩ := f
    cases hnil
    have hbytes : ∀ offset n, File.bytesAt ⟨[],position⟩ offset n=[] := by
      intro offset n
      rw [File.bytesAt,List.drop_nil,List.take_nil]
    refine ⟨⟨0,⟨Nat.zero_le _,?_⟩,?_⟩,?_⟩
    · rw [hbytes]
      exact fun h ↦ h
    · rw [File.osRead,hbytes,hbytes]
      rfl
    · rw [File.osRead,hbytes]
      rfl

/-- A read at the start that leaves the position is an unpositioned one only in an empty file. -/
lemma osPread_read_iff (f : File) {size : ℕ} (hpos : 0<size) :
    ReadsAt f f.position size (f.osPread size 0).1 ∧ f.contents=f.contents ∧
      f.position=f.position+(f.osPread size 0).1.rv.toNat ↔ f.contents=[] := by
  constructor
  · rintro ⟨-,-,hmove⟩
    have hlen : (f.bytesAt 0 size).length=0 := by
      change f.position=f.position+(f.bytesAt 0 size).length at hmove
      omega
    rw [bytesAt_length] at hlen
    exact List.eq_nil_of_length_eq_zero (by omega)
  · intro hnil
    have hbytes : ∀ offset n, f.bytesAt offset n=[] := by
      intro offset n
      rw [File.bytesAt,hnil,List.drop_nil,List.take_nil]
    refine ⟨⟨0,⟨Nat.zero_le _,?_⟩,?_⟩,rfl,?_⟩
    · rw [hbytes]
      exact fun h ↦ h
    · rw [File.osPread,hbytes,hbytes]
      rfl
    · rw [File.osPread,hbytes]
      rfl

/-- A complete write elsewhere is the write only if the contents come out the same. -/
lemma writesAt_iff_overwrite (offset : ℕ) (data : List UInt8) (contents : List UInt8) :
    WritesAt f offset data ⟨data.length,[]⟩ contents ↔ contents=f.overwrite offset data := by
  constructor
  · rintro ⟨k,-,hr,rfl⟩
    have hk : data.length=k := by
      have := (Result.mk.inj hr).1
      omega
    rw [← hk,List.take_length]
  · rintro rfl
    exact ⟨data.length,⟨le_refl _,id⟩,rfl,by rw [List.take_length]⟩

/-- A system call does what POSIX specifies exactly when it acts at the right place. -/
lemma posix_syscall_iff (f : File) {c : Call} (hc : c.Valid) :
    Posix f c (f.syscall c).1 (f.syscall c).2 ↔ c.Safe f := by
  cases c with
  | read size =>
    exact iff_true_intro (posix_osRead f (min_le_left _ _) (min_syscallIoBufsize_pos hc))
  | write data =>
    exact iff_true_intro (posix_osWrite f (min_le_left _ _)
      (min_syscallIoBufsize_pos (List.length_pos_of_ne_nil hc)))
  | readv sizes =>
    obtain ⟨hne,hlen,hpos⟩ := hc
    rw [File.syscall,readvHelper_eq f hne hlen hpos]
    exact osPread_read_iff f (sum_pos_of_valid hne hpos)
  | writev data =>
    obtain ⟨hne,hlen,hpos⟩ := hc
    rw [File.syscall,writevHelper_eq f hne hlen hpos]
    have := flatten_pos_of_valid hne hpos
    refine iff_of_false ?_ id
    rintro ⟨-,hmove⟩
    change f.position=f.position+data.flatten.length at hmove
    omega
  | pread64 size offset =>
    have hmin := min_syscallIoBufsize_pos hc
    by_cases hoff : offset=0
    · rw [File.syscall,File.readHelper,if_pos hoff]
      subst hoff
      exact (osRead_pread_iff f (min_le_left _ _) hmin).trans (by simp [Call.Safe])
    · rw [File.syscall,File.readHelper,if_neg hoff]
      exact iff_of_true ⟨readsAt_bytesAt f offset (min_le_left _ _) hmin,rfl⟩ (Or.inl hoff)
  | pwrite64 data offset =>
    have hmin := min_syscallIoBufsize_pos (List.length_pos_of_ne_nil hc)
    by_cases hoff : offset=0
    · rw [File.syscall,File.writeHelper,if_pos hoff]
      refine iff_of_false ?_ fun h ↦ h hoff
      rintro ⟨-,hmove⟩
      change f.position+(data.take (min data.length syscallIoBufsize)).length=f.position at hmove
      rw [List.length_take] at hmove
      omega
    · rw [File.syscall,File.writeHelper,if_neg hoff]
      exact iff_of_true ⟨writesAt_take f offset (min_le_left _ _) hmin,rfl⟩ hoff
  | preadv sizes offset =>
    obtain ⟨hne,hlen,hpos⟩ := hc
    rw [File.syscall,readvHelper_eq f hne hlen hpos]
    exact (and_iff_left rfl).trans (readsAt_iff_isPrefix offset (sum_pos_of_valid hne hpos))
  | pwritev data offset =>
    obtain ⟨hne,hlen,hpos⟩ := hc
    rw [File.syscall,writevHelper_eq f hne hlen hpos]
    exact (and_iff_left rfl).trans (writesAt_iff_overwrite offset data.flatten _)
  | lseek offset whence => exact iff_true_intro ⟨rfl,rfl⟩

lemma posix_file_unique {f₁ f₂ : File} {c : Call} {r : Result} (h₁ : Posix f c r f₁)
    (h₂ : Posix f c r f₂) : f₁=f₂ := by
  have hwrite : ∀ {offset data c₁ c₂}, WritesAt f offset data r c₁ → WritesAt f offset data r c₂ →
      c₁=c₂ := by
    rintro offset data c₁ c₂ ⟨k,-,rfl,rfl⟩ ⟨k',-,hr,rfl⟩
    have hk : k=k' := by
      have := (Result.mk.inj hr).1
      omega
    rw [hk]
  cases c with
  | read size =>
    exact File.ext (h₁.2.1.trans h₂.2.1.symm) (h₁.2.2.trans h₂.2.2.symm)
  | write data => exact File.ext (hwrite h₁.1 h₂.1) (h₁.2.trans h₂.2.symm)
  | readv sizes =>
    exact File.ext (h₁.2.1.trans h₂.2.1.symm) (h₁.2.2.trans h₂.2.2.symm)
  | writev data => exact File.ext (hwrite h₁.1 h₂.1) (h₁.2.trans h₂.2.symm)
  | pread64 size offset => exact h₁.2.trans h₂.2.symm
  | pwrite64 data offset => exact File.ext (hwrite h₁.1 h₂.1) (h₁.2.trans h₂.2.symm)
  | preadv sizes offset => exact h₁.2.trans h₂.2.symm
  | pwritev data offset => exact File.ext (hwrite h₁.1 h₂.1) (h₁.2.trans h₂.2.symm)
  | lseek offset whence => exact h₁.2.trans h₂.2.symm

lemma agrees_cons_iff (c : Call) (cs : List Call) :
    Agrees f (c::cs) ↔
      Posix f c (f.syscall c).1 (f.syscall c).2 ∧ Agrees (f.syscall c).2 cs := by
  constructor
  · intro h
    have hfirst : Posix f c (f.syscall c).1 (f.syscall c).2 := by
      have hone := h [c] ⟨cs,rfl⟩
      cases hone with
      | cons hp hnil =>
        cases hnil
        exact hp
    refine ⟨hfirst,fun cs' hcs' ↦ ?_⟩
    have hrest := h (c::cs') (List.cons_prefix_cons.mpr ⟨rfl,hcs'⟩)
    cases hrest with
    | cons hp hs =>
      rw [posix_file_unique hp hfirst] at hs
      exact hs
  · rintro ⟨hp,hs⟩ cs' hcs'
    cases cs' with
    | nil => exact .nil f
    | cons c' cs' =>
      obtain ⟨rfl,hrest⟩ := List.cons_prefix_cons.mp hcs'
      exact .cons hp (hs cs' hrest)

/-- A sequence of calls has the results, contents and positions of the POSIX model exactly when each
of its calls acts at the right place. -/
theorem agrees_iff_safeAll (f : File) (calls : List Call) (hvalid : ∀ c ∈ calls, c.Valid) :
    Agrees f calls ↔ SafeAll f calls := by
  induction calls generalizing f with
  | nil =>
    refine iff_of_true ?_ trivial
    intro cs hcs
    rw [List.prefix_nil.mp hcs]
    exact .nil f
  | cons c cs ih =>
    rw [agrees_cons_iff,posix_syscall_iff f (hvalid c List.mem_cons_self),
      ih _ fun c' hc' ↦ hvalid c' (List.mem_cons_of_mem c hc')]
    rfl

/-- A file of four bytes at its start. -/
def small : File := ⟨[1,2,3,4],0⟩

/-- Reads, writes and seeks next to `pread64` and `pwrite64` behind the start and `preadv` at it. -/
theorem agrees_small_calls :
    Agrees small [.read 2,.pread64 2 1,.pwrite64 [9] 3,.write [7],.lseek 1 .cur,.preadv [4] 0] := by
  refine (agrees_iff_safeAll _ _ fun c hc ↦ ?_).mpr
    ⟨trivial,Or.inl (by decide),show 3 ≠ 0 by decide,trivial,trivial,List.take_prefix _ _,trivial⟩
  simp only [List.mem_cons,List.not_mem_nil,or_false] at hc
  rcases hc with rfl | rfl | rfl | rfl | rfl | rfl
  · exact Nat.zero_lt_two
  · exact Nat.zero_lt_two
  · exact List.cons_ne_nil 9 []
  · exact List.cons_ne_nil 7 []
  · trivial
  · exact ⟨List.cons_ne_nil 4 [],by decide,by decide⟩

/-- `pread64` at offset 0 after a read returns the bytes at the position and moves it. -/
theorem pread64_zero_reads_at_position :
    (small.syscalls [.read 2,.pread64 1 0])=([⟨2,[1,2]⟩,⟨1,[3]⟩],⟨[1,2,3,4],3⟩) ∧
      ¬Agrees small [.read 2,.pread64 1 0] := by
  refine ⟨rfl,fun h ↦ ?_⟩
  have hrest := ((agrees_cons_iff _ _).mp h).2
  have hvalid : (Call.pread64 1 0).Valid := Nat.one_pos
  have hsafe := (posix_syscall_iff _ hvalid).mp ((agrees_cons_iff _ _).mp hrest).1
  rcases hsafe with hoff | hempty
  · exact hoff rfl
  · cases hempty

end Phantom.Syscall.FilePosition
