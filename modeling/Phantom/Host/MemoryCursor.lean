import Mathlib.Data.List.Basic
import Mathlib.Tactic

/-! Cursors over a range of a plugin's memory, against `std::io::Cursor` over the bytes of the range. -/
namespace Phantom

def efault : ℕ := 14

/-- `SeekFrom`, with its 64-bit numbers. -/
inductive SeekFrom where
  | start (x : BitVec 64)
  | fromEnd (x : BitVec 64)
  | current (x : BitVec 64)
  deriving DecidableEq, Repr

/-- `TypedPluginPtr<u8>`. -/
structure TypedPluginPtr where
  base : ℕ
  count : ℕ
  deriving DecidableEq, Repr

/-- `as i64`. -/
def toI64 (n : ℕ) : ℤ := Int.bmod n (2^64)

/-- The sum of two `i64`; where it overflows, a debug build panics and a release build wraps. -/
def addI64 (debug : Bool) (x y : ℤ) : Option ℤ :=
  if -2^63 ≤ x+y ∧ x+y < 2^63 then some (x+y)
  else if debug then none
  else some (Int.bmod (x+y) (2^64))

/-- `slice`, with the bounds of the range worked out. -/
def TypedPluginPtr.slice (debug : Bool) (p : TypedPluginPtr) (includedStart excludedEnd : ℕ) :
    Option TypedPluginPtr := do
  guard (includedStart ≤ excludedEnd)
  guard (excludedEnd ≤ p.count)
  guard (includedStart ≤ p.count)
  guard (debug=true → p.base+includedStart < 2^64)
  some ⟨(p.base+includedStart)%2^64,excludedEnd-includedStart⟩

/-- The plugin's memory, byte by byte. -/
abbrev PluginMemory := ℕ → UInt8

/-- The bytes of a range. -/
def PluginMemory.bytes (mem : PluginMemory) (p : TypedPluginPtr) : List UInt8 :=
  (List.range p.count).map fun i ↦ mem (p.base+i)

def PluginMemory.write (mem : PluginMemory) (p : TypedPluginPtr) (src : List UInt8) : PluginMemory := fun x ↦
  if p.base ≤ x ∧ x < p.base+p.count then src[x-p.base]?.getD (mem x) else mem x

/-- `MemoryReaderCursor` and `MemoryWriterCursor`, which differ in the calls that they have. -/
structure MemoryCursor where
  ptr : TypedPluginPtr
  offset : ℕ
  deriving DecidableEq, Repr

/-- What a cursor is a cursor over, and the cursor. -/
structure CursorState where
  memory : PluginMemory
  cursor : MemoryCursor

/-- The calls. A copy that fails does so with an error code; a failed write may have changed the
memory. -/
inductive CursorCall where
  | seek (pos : SeekFrom)
  | read (length : ℕ) (fault : Option ℕ)
  | write (buf : List UInt8) (fault : Option (ℕ × PluginMemory))

inductive CursorReply where
  | position (p : ℕ)
  | bytes (buf : List UInt8)
  | written (n : ℕ)
  | error (errno : ℕ)
  deriving DecidableEq, Repr

/-- `seek_helper`. -/
def seekHelper (debug : Bool) (offset len : ℕ) (pos : SeekFrom) : Option (Except ℕ ℕ) := do
  let newOffset ← match pos with
    | .current x => addI64 debug (toI64 offset) x.toInt
    | .fromEnd x => addI64 debug (toI64 len) x.toInt
    | .start x => some x.toInt
  if newOffset < 0 then some (.error efault) else some (.ok newOffset.toNat)

namespace CursorState

def moveTo (s : CursorState) (offset : ℕ) : CursorState := {s with cursor := {s.cursor with offset := offset}}

def seek (debug : Bool) (s : CursorState) (pos : SeekFrom) : Option (CursorReply × CursorState) := do
  match ← seekHelper debug s.cursor.offset s.cursor.ptr.count pos with
  | .error e => some (.error e,s)
  | .ok offset => some (.position offset,s.moveTo offset)

def read (debug : Bool) (s : CursorState) (length : ℕ) (fault : Option ℕ) :
    Option (CursorReply × CursorState) := do
  let ptr ← s.cursor.ptr.slice debug s.cursor.offset s.cursor.ptr.count
  let toread := min length ptr.count
  if toread=0 then some (.bytes [],s)
  else do
    let src ← ptr.slice debug 0 toread
    match fault with
    | some e => some (.error e,s)
    | none => some (.bytes (s.memory.bytes src),s.moveTo (s.cursor.offset+toread))

def write (debug : Bool) (s : CursorState) (buf : List UInt8) (fault : Option (ℕ × PluginMemory)) :
    Option (CursorReply × CursorState) := do
  let ptr ← s.cursor.ptr.slice debug s.cursor.offset s.cursor.ptr.count
  let towrite := min buf.length ptr.count
  if towrite=0 then some (.written 0,s)
  else do
    let dst ← ptr.slice debug 0 towrite
    match fault with
    | some (e,memory) => some (.error e,{s with memory := memory})
    | none => some (.written towrite,
        {s with memory := s.memory.write dst (buf.take towrite)}.moveTo (s.cursor.offset+towrite))

/-- A call; `none` is a panic. -/
def step (debug : Bool) (s : CursorState) : CursorCall → Option (CursorReply × CursorState)
  | .seek pos => s.seek debug pos
  | .read length fault => s.read debug length fault
  | .write buf fault => s.write debug buf fault

end CursorState

/-- `std::io::Cursor` over a fixed number of bytes. -/
structure IoCursor where
  bytes : List UInt8
  position : ℕ
  deriving DecidableEq, Repr

namespace IoCursor

/-- Bytes that can be transferred at the position. -/
def left (c : IoCursor) : ℕ := c.bytes.length-c.position

def read (c : IoCursor) (length : ℕ) : List UInt8 × IoCursor :=
  ((c.bytes.drop c.position).take length,{c with position := c.position+min length c.left})

def write (c : IoCursor) (buf : List UInt8) : ℕ × IoCursor :=
  let n := min buf.length c.left
  (n,⟨c.bytes.take c.position++(buf.take n++c.bytes.drop (c.position+n)),c.position+n⟩)

end IoCursor

namespace CursorState

def view (s : CursorState) : IoCursor := ⟨s.memory.bytes s.cursor.ptr,s.cursor.offset⟩

/-- Where a seek leads to. -/
def target (s : CursorState) : SeekFrom → ℤ
  | .start x => x.toNat
  | .fromEnd x => s.cursor.ptr.count+x.toInt
  | .current x => s.cursor.offset+x.toInt

/-- What a call should do. -/
def Conforms (s : CursorState) (reply : CursorReply) (s' : CursorState) : CursorCall → Prop
  | .seek pos =>
    if 0 ≤ s.target pos ∧ s.target pos < 2^64 then
      reply=.position (s.target pos).toNat ∧ s'=s.moveTo (s.target pos).toNat
    else (∃ e, reply=.error e) ∧ s'=s
  | .read length fault =>
    if fault=none ∨ min length s.view.left=0 then
      reply=.bytes (s.view.read length).1 ∧ s'.memory=s.memory ∧ s'.view=(s.view.read length).2
    else (∃ e ∈ fault, reply=.error e) ∧ s'=s
  | .write buf fault =>
    if fault=none ∨ min buf.length s.view.left=0 then
      reply=.written (s.view.write buf).1 ∧ s'.view=(s.view.write buf).2
    else (∃ f ∈ fault, reply=.error f.1) ∧ s'.cursor=s.cursor

/-- The calls that the code gets right: no transfer starts behind the end of the range, and no seek
leads to a position that is not an `i64`. -/
def Within (s : CursorState) : CursorCall → Prop
  | .seek pos => s.target pos < 2^63
  | _ => s.cursor.offset ≤ s.cursor.ptr.count

/-- Every call of the run does what it should. -/
def Behaves (debug : Bool) (s : CursorState) : List CursorCall → Prop
  | [] => True
  | call::calls => ∃ reply s', s.step debug call=some (reply,s') ∧ s.Conforms reply s' call ∧ s'.Behaves debug calls

/-- Every call of the run meets the condition in the state before it. -/
def AllWithin (debug : Bool) (s : CursorState) : List CursorCall → Prop
  | [] => True
  | call::calls => s.Within call ∧ ∀ reply s', s.step debug call=some (reply,s') → s'.AllWithin debug calls

/-- What all states of a cursor over user memory have in common. -/
structure Bounded (s : CursorState) : Prop where
  range : s.cursor.ptr.base+s.cursor.ptr.count < 2^63
  offset : s.cursor.offset < 2^63

end CursorState

variable {debug : Bool}

lemma TypedPluginPtr.slice_eq (debug : Bool) {p : TypedPluginPtr} {a b : ℕ} (hab : a ≤ b) (hb : b ≤ p.count)
    (hrange : p.base+p.count < 2^63) : p.slice debug a b=some ⟨p.base+a,b-a⟩ := by
  have ha : a ≤ p.count := by omega
  have hfit : p.base+a < 18446744073709551616 := by omega
  simp [slice,guard,hab,hb,ha,hfit,Nat.mod_eq_of_lt hfit]

lemma TypedPluginPtr.slice_none {p : TypedPluginPtr} {a b : ℕ} (h : b < a) : p.slice debug a b=none := by
  have : ¬ a ≤ b := by omega
  simp [slice,this]

@[simp] lemma PluginMemory.length_bytes (mem : PluginMemory) (p : TypedPluginPtr) :
    (mem.bytes p).length=p.count := by
  simp [bytes]

lemma PluginMemory.getElem_bytes (mem : PluginMemory) (p : TypedPluginPtr) (i : ℕ)
    (h : i < (mem.bytes p).length) : (mem.bytes p)[i]=mem (p.base+i) := by
  simp [bytes]

lemma PluginMemory.bytes_slice (mem : PluginMemory) (base : ℕ) {offset n : ℕ} (count : ℕ) (h : offset+n ≤ count) :
    mem.bytes ⟨base+offset,n⟩=((mem.bytes ⟨base,count⟩).drop offset).take n := by
  apply List.ext_getElem
  · simp; omega
  · intro i _ _
    simp [getElem_bytes,Nat.add_assoc]

lemma PluginMemory.write_apply (mem : PluginMemory) (base n x : ℕ) (src : List UInt8) (h : src.length=n) :
    mem.write ⟨base,n⟩ src x=if base ≤ x then src[x-base]?.getD (mem x) else mem x := by
  simp only [write]
  split_ifs with hx hbase hbase
  · rfl
  · exact absurd hx.1 hbase
  · have : src.length ≤ x-base := by omega
    simp [this]
  · rfl

lemma PluginMemory.bytes_write (mem : PluginMemory) (base offset count : ℕ) (src : List UInt8)
    (h : offset+src.length ≤ count) :
    (mem.write ⟨base+offset,src.length⟩ src).bytes ⟨base,count⟩=
      (mem.bytes ⟨base,count⟩).take offset++(src++(mem.bytes ⟨base,count⟩).drop (offset+src.length)) := by
  have hmin : min offset count=offset := by omega
  apply List.ext_getElem
  · simp; omega
  · intro i hi _
    have hcount : i < count := by simpa using hi
    rw [getElem_bytes,write_apply _ _ _ _ _ rfl]
    rcases lt_or_ge i offset with hbefore | hafter
    · simp [getElem_bytes,hbefore,hcount]
    · have hsub : base+i-(base+offset)=i-offset := by omega
      rcases lt_or_ge (i-offset) src.length with hin | hout
      · simp [hafter,hsub,hin,hmin]
      · have hi' : offset+src.length+(i-offset-src.length)=i := by omega
        simp [getElem_bytes,hafter,hsub,hout,hmin,hi']

namespace CursorState

variable {s s' : CursorState}

lemma Bounded.count_lt (h : s.Bounded) : s.cursor.ptr.count < 2^63 := by
  have := h.range
  omega

lemma toI64_eq {n : ℕ} (h : n < 2^63) : toI64 n=n := by
  unfold toI64
  rw [Int.bmod_eq_of_le] <;> omega

lemma addI64_eq {x y : ℤ} (hx : -2^63 ≤ x+y) (hy : x+y < 2^63) : addI64 debug x y=some (x+y) :=
  if_pos ⟨hx,hy⟩

/-- An overflowing sum of a position and a displacement panics or comes out negative. -/
lemma addI64_overflow {x y r : ℤ} (hx : 2^63 ≤ x+y) (hy : x+y < 2^64) (h : addI64 debug x y=some r) : r < 0 := by
  have hno : ¬ (-2^63 ≤ x+y ∧ x+y < 2^63) := by omega
  unfold addI64 at h
  rw [if_neg hno] at h
  split_ifs at h
  obtain rfl := Option.some.inj h
  have : Int.bmod (x+y) (2^64)=x+y-2^64 := by
    rw [Int.bmod_def]
    omega
  omega

lemma target_bounds (h : s.Bounded) (pos : SeekFrom) : -2^63 ≤ s.target pos ∧ s.target pos < 2^64 := by
  have hcount := h.count_lt
  have hoffset := h.offset
  cases pos with
  | start x =>
    have := x.isLt
    simp only [target]
    omega
  | fromEnd x =>
    have hlo := x.le_toInt
    have hhi := x.toInt_lt
    simp only [target]
    omega
  | current x =>
    have hlo := x.le_toInt
    have hhi := x.toInt_lt
    simp only [target]
    omega

/-- A seek within the positions of an `i64`. -/
lemma seekHelper_within (debug : Bool) (h : s.Bounded) {pos : SeekFrom} (hpos : s.target pos < 2^63) :
    seekHelper debug s.cursor.offset s.cursor.ptr.count pos=
      some (if s.target pos < 0 then .error efault else .ok (s.target pos).toNat) := by
  have hlo := (target_bounds h pos).1
  cases pos with
  | start x =>
    have hx : x.toInt=x.toNat := by
      simp only [target] at hpos
      rw [BitVec.toInt_eq_toNat_of_lt]
      omega
    simp only [seekHelper,target,hx,Option.bind_eq_bind,Option.bind_some]
    exact (apply_ite some _ _ _).symm
  | fromEnd x =>
    simp only [target] at hlo hpos
    simp only [seekHelper,target,toI64_eq h.count_lt,addI64_eq hlo hpos,Option.bind_eq_bind,Option.bind_some]
    exact (apply_ite some _ _ _).symm
  | current x =>
    simp only [target] at hlo hpos
    simp only [seekHelper,target,toI64_eq h.offset,addI64_eq hlo hpos,Option.bind_eq_bind,Option.bind_some]
    exact (apply_ite some _ _ _).symm

lemma seekHelper_beyond (h : s.Bounded) {pos : SeekFrom} (hpos : 2^63 ≤ s.target pos) {r : Except ℕ ℕ}
    (hr : seekHelper debug s.cursor.offset s.cursor.ptr.count pos=some r) : r=.error efault := by
  have hhi := (target_bounds h pos).2
  cases pos with
  | start x =>
    have hx : x.toInt < 0 := by
      simp only [target] at hpos
      rw [BitVec.toInt_eq_toNat_cond]
      split <;> omega
    simp only [seekHelper,Option.bind_eq_bind,Option.bind_some,if_pos hx] at hr
    exact (Option.some.inj hr).symm
  | fromEnd x =>
    simp only [target] at hhi hpos
    simp only [seekHelper,toI64_eq h.count_lt,Option.bind_eq_bind,Option.bind_eq_some_iff] at hr
    obtain ⟨n,hn,hr⟩ := hr
    rw [if_pos (addI64_overflow hpos hhi hn)] at hr
    exact (Option.some.inj hr).symm
  | current x =>
    simp only [target] at hhi hpos
    simp only [seekHelper,toI64_eq h.offset,Option.bind_eq_bind,Option.bind_eq_some_iff] at hr
    obtain ⟨n,hn,hr⟩ := hr
    rw [if_pos (addI64_overflow hpos hhi hn)] at hr
    exact (Option.some.inj hr).symm

lemma seek_iff (debug : Bool) (h : s.Bounded) (pos : SeekFrom) :
    (∃ reply s', s.step debug (.seek pos)=some (reply,s') ∧ s.Conforms reply s' (.seek pos)) ↔
      s.Within (.seek pos) := by
  have hhi := (target_bounds h pos).2
  constructor
  · rintro ⟨reply,s',hstep,hconf⟩
    by_contra hbeyond
    have hpos : 2^63 ≤ s.target pos := by simpa [Within] using hbeyond
    have hin : 0 ≤ s.target pos ∧ s.target pos < 2^64 := ⟨by omega,hhi⟩
    simp only [Conforms,if_pos hin] at hconf
    simp only [step,seek,Option.bind_eq_bind,Option.bind_eq_some_iff] at hstep
    obtain ⟨r,hr,hstep⟩ := hstep
    obtain rfl := seekHelper_beyond h hpos hr
    have : reply=.error efault := (Prod.ext_iff.mp (Option.some.inj hstep)).1.symm
    rw [this] at hconf
    exact nomatch hconf.1
  · intro hpos
    have hr := seekHelper_within debug h hpos
    by_cases hneg : s.target pos < 0
    · refine ⟨.error efault,s,?_,?_⟩
      · simp [step,seek,hr,hneg]
      · have : ¬ (0 ≤ s.target pos ∧ s.target pos < 2^64) := by omega
        simp only [Conforms,if_neg this]
        exact ⟨⟨efault,rfl⟩,trivial⟩
    · refine ⟨.position (s.target pos).toNat,s.moveTo (s.target pos).toNat,?_,?_⟩
      · simp [step,seek,hr,hneg]
      · have : 0 ≤ s.target pos ∧ s.target pos < 2^64 := by omega
        simp only [Conforms,if_pos this]
        exact ⟨trivial,trivial⟩

lemma slices (debug : Bool) (h : s.Bounded) (hoffset : s.cursor.offset ≤ s.cursor.ptr.count) {n : ℕ}
    (hn : n ≤ s.cursor.ptr.count-s.cursor.offset) :
    ∃ ptr, s.cursor.ptr.slice debug s.cursor.offset s.cursor.ptr.count=some ptr ∧
      ptr.count=s.view.left ∧ ptr.slice debug 0 n=some ⟨s.cursor.ptr.base+s.cursor.offset,n⟩ := by
  have hrange := h.range
  refine ⟨_,TypedPluginPtr.slice_eq debug hoffset le_rfl hrange,?_,?_⟩
  · simp [view,IoCursor.left]
  · rw [TypedPluginPtr.slice_eq debug (Nat.zero_le n) hn]
    · rfl
    · dsimp only
      omega

lemma left_view (s : CursorState) : s.view.left=s.cursor.ptr.count-s.cursor.offset := by
  simp [view,IoCursor.left]

lemma read_eq (debug : Bool) (h : s.Bounded) (hoffset : s.cursor.offset ≤ s.cursor.ptr.count) (length : ℕ)
    (fault : Option ℕ) :
    s.read debug length fault=
      if min length s.view.left=0 then some (.bytes [],s)
      else match fault with
        | some e => some (.error e,s)
        | none => some (.bytes ((s.view.bytes.drop s.cursor.offset).take (min length s.view.left)),
            s.moveTo (s.cursor.offset+min length s.view.left)) := by
  have hleft := left_view s
  obtain ⟨ptr,hptr,hcount,hsrc⟩ := slices (n := min length s.view.left) debug h hoffset (by omega)
  have hpiece : s.cursor.offset+min length s.view.left ≤ s.cursor.ptr.count := by omega
  have hbytes := s.memory.bytes_slice s.cursor.ptr.base s.cursor.ptr.count hpiece
  simp only [read,hptr,hcount,hsrc,hbytes,Option.bind_eq_bind,Option.bind_some]
  rfl

lemma write_eq (debug : Bool) (h : s.Bounded) (hoffset : s.cursor.offset ≤ s.cursor.ptr.count)
    (buf : List UInt8) (fault : Option (ℕ × PluginMemory)) :
    s.write debug buf fault=
      if min buf.length s.view.left=0 then some (.written 0,s)
      else match fault with
        | some (e,memory) => some (.error e,{s with memory := memory})
        | none => some (.written (min buf.length s.view.left),
            ({s with memory := (s.memory.write ⟨s.cursor.ptr.base+s.cursor.offset,min buf.length s.view.left⟩
                (buf.take (min buf.length s.view.left)))} : CursorState).moveTo
                  (s.cursor.offset+min buf.length s.view.left)) := by
  have hleft := left_view s
  obtain ⟨ptr,hptr,hcount,hdst⟩ := slices (n := min buf.length s.view.left) debug h hoffset (by omega)
  simp only [write,hptr,hcount,hdst,Option.bind_eq_bind,Option.bind_some]

lemma conforms_read {reply : CursorReply} {length : ℕ} {fault : Option ℕ}
    (hdone : fault=none ∨ min length s.view.left=0) (hmemory : s'.memory=s.memory)
    (hreply : reply=.bytes (s.view.read length).1) (hview : s'.view=(s.view.read length).2) :
    s.Conforms reply s' (.read length fault) :=
  (if_pos hdone).mpr ⟨hreply,hmemory,hview⟩

lemma conforms_write {reply : CursorReply} {buf : List UInt8} {fault : Option (ℕ × PluginMemory)}
    (hdone : fault=none ∨ min buf.length s.view.left=0) (hreply : reply=.written (s.view.write buf).1)
    (hview : s'.view=(s.view.write buf).2) : s.Conforms reply s' (.write buf fault) :=
  (if_pos hdone).mpr ⟨hreply,hview⟩

lemma read_within (debug : Bool) (h : s.Bounded) (hoffset : s.cursor.offset ≤ s.cursor.ptr.count) (length : ℕ)
    (fault : Option ℕ) :
    ∃ reply s', s.read debug length fault=some (reply,s') ∧ s.Conforms reply s' (.read length fault) := by
  have hbytes : s.view.bytes.length=s.cursor.ptr.count := by simp [view]
  have hleft := left_view s
  have htake : (s.view.bytes.drop s.cursor.offset).take (min length s.view.left)=
      (s.view.bytes.drop s.cursor.offset).take length := by
    rw [← List.take_take,List.take_of_length_le (l := s.view.bytes.drop _)]
    simp [hbytes,hleft]
  rw [read_eq debug h hoffset]
  by_cases hzero : min length s.view.left=0
  · rw [hzero] at htake
    exact ⟨_,_,if_pos hzero,conforms_read (.inr hzero) rfl (congrArg _ htake) (by simp [IoCursor.read,hzero])⟩
  · rw [if_neg hzero]
    cases fault with
    | some e =>
      have : ¬ (some e=none ∨ min length s.view.left=0) := by simpa using hzero
      exact ⟨_,_,rfl,(if_neg this).mpr ⟨⟨e,rfl,rfl⟩,rfl⟩⟩
    | none => exact ⟨_,_,rfl,conforms_read (.inl rfl) rfl (congrArg _ htake) rfl⟩

lemma write_within (debug : Bool) (h : s.Bounded) (hoffset : s.cursor.offset ≤ s.cursor.ptr.count)
    (buf : List UInt8) (fault : Option (ℕ × PluginMemory)) :
    ∃ reply s', s.write debug buf fault=some (reply,s') ∧ s.Conforms reply s' (.write buf fault) := by
  have hleft := left_view s
  rw [write_eq debug h hoffset]
  by_cases hzero : min buf.length s.view.left=0
  · exact ⟨_,_,if_pos hzero,conforms_write (.inr hzero) (by simp [IoCursor.write,hzero])
      (by simp [IoCursor.write,hzero])⟩
  · rw [if_neg hzero]
    cases fault with
    | some e =>
      have : ¬ (some e=none ∨ min buf.length s.view.left=0) := by simpa using hzero
      exact ⟨_,_,rfl,(if_neg this).mpr ⟨⟨e,rfl,rfl⟩,rfl⟩⟩
    | none =>
      have hlen : (buf.take (min buf.length s.view.left)).length=min buf.length s.view.left := by simp
      have hw := s.memory.bytes_write s.cursor.ptr.base s.cursor.offset s.cursor.ptr.count
        (buf.take (min buf.length s.view.left)) (by omega)
      rw [hlen] at hw
      exact ⟨_,_,rfl,conforms_write (.inl rfl) rfl (congrArg (IoCursor.mk · _) hw)⟩

/-- What a call does where it is right, and that it is wrong elsewhere. -/
theorem step_iff (debug : Bool) (h : s.Bounded) (call : CursorCall) :
    (∃ reply s', s.step debug call=some (reply,s') ∧ s.Conforms reply s' call) ↔ s.Within call := by
  have hslice : ¬ s.cursor.offset ≤ s.cursor.ptr.count →
      s.cursor.ptr.slice debug s.cursor.offset s.cursor.ptr.count=none :=
    fun hout ↦ TypedPluginPtr.slice_none (by omega)
  cases call with
  | seek pos => exact seek_iff debug h pos
  | read length fault =>
    refine ⟨?_,fun hoffset ↦ read_within debug h hoffset length fault⟩
    rintro ⟨reply,s',hstep,-⟩
    by_contra hout
    simp [step,read,hslice hout] at hstep
  | write buf fault =>
    refine ⟨?_,fun hoffset ↦ write_within debug h hoffset buf fault⟩
    rintro ⟨reply,s',hstep,-⟩
    by_contra hout
    simp [step,write,hslice hout] at hstep

lemma step_ptr {call : CursorCall} {reply : CursorReply} (hstep : s.step debug call=some (reply,s')) :
    s'.cursor.ptr=s.cursor.ptr := by
  cases call with
  | seek pos =>
    simp only [step,seek,Option.bind_eq_bind,Option.bind_eq_some_iff] at hstep
    obtain ⟨r,-,hr⟩ := hstep
    split at hr <;> cases hr <;> rfl
  | read length fault =>
    simp only [step,read,Option.bind_eq_bind,Option.bind_eq_some_iff] at hstep
    obtain ⟨ptr,-,hr⟩ := hstep
    split at hr
    · cases hr
      rfl
    · obtain ⟨src,-,hr⟩ := Option.bind_eq_some_iff.mp hr
      split at hr <;> cases hr <;> rfl
  | write buf fault =>
    simp only [step,write,Option.bind_eq_bind,Option.bind_eq_some_iff] at hstep
    obtain ⟨ptr,-,hr⟩ := hstep
    split at hr
    · cases hr
      rfl
    · obtain ⟨dst,-,hr⟩ := Option.bind_eq_some_iff.mp hr
      split at hr <;> cases hr <;> rfl

/-- A right call leaves the position within the positions of an `i64`. -/
lemma Conforms.offset_lt {call : CursorCall} {reply : CursorReply} (h : s.Bounded) (hwithin : s.Within call)
    (hconf : s.Conforms reply s' call) : s'.cursor.offset < 2^63 := by
  have hcount := h.count_lt
  have hoffset := h.offset
  have hleft := left_view s
  cases call with
  | seek pos =>
    simp only [Within] at hwithin
    simp only [Conforms] at hconf
    split at hconf
    · rw [hconf.2]
      simp only [moveTo]
      omega
    · rw [hconf.2]
      exact h.offset
  | read length fault =>
    simp only [Within] at hwithin
    simp only [Conforms] at hconf
    split at hconf
    · have : s'.cursor.offset=s.cursor.offset+min length s.view.left := congrArg IoCursor.position hconf.2.2
      omega
    · rw [hconf.2]
      exact h.offset
  | write buf fault =>
    simp only [Within] at hwithin
    simp only [Conforms] at hconf
    split at hconf
    · have : s'.cursor.offset=s.cursor.offset+min buf.length s.view.left := congrArg IoCursor.position hconf.2
      omega
    · rw [hconf.2]
      exact h.offset

/-- A run is right exactly if each of its calls is one that the code gets right. -/
theorem behaves_iff (debug : Bool) (calls : List CursorCall) (h : s.Bounded) :
    s.Behaves debug calls ↔ s.AllWithin debug calls := by
  induction calls generalizing s with
  | nil => exact Iff.rfl
  | cons call calls ih =>
    constructor
    · rintro ⟨reply,s',hstep,hconf,hrest⟩
      have hwithin := (step_iff debug h call).mp ⟨reply,s',hstep,hconf⟩
      refine ⟨hwithin,fun reply' s'' hstep' ↦ ?_⟩
      obtain ⟨rfl,rfl⟩ := Prod.mk.inj (Option.some.inj (hstep.symm.trans hstep'))
      have hbounded : s'.Bounded := ⟨step_ptr hstep ▸ h.range,hconf.offset_lt h hwithin⟩
      exact (ih hbounded).mp hrest
    · rintro ⟨hwithin,hrest⟩
      obtain ⟨reply,s',hstep,hconf⟩ := (step_iff debug h call).mpr hwithin
      have hbounded : s'.Bounded := ⟨step_ptr hstep ▸ h.range,hconf.offset_lt h hwithin⟩
      exact ⟨reply,s',hstep,hconf,(ih hbounded).mpr (hrest reply s' hstep)⟩

end CursorState

/-- Over every range of user memory, a run of calls behaves as on a `std::io::Cursor` over its bytes
exactly if no transfer starts behind the end and no seek leads to a position that is not an `i64`. -/
theorem cursor_behaves_iff (debug : Bool) (mem : PluginMemory) (ptr : TypedPluginPtr)
    (hptr : ptr.base+ptr.count < 2^63) (calls : List CursorCall) :
    CursorState.Behaves debug ⟨mem,ptr,0⟩ calls ↔ CursorState.AllWithin debug ⟨mem,ptr,0⟩ calls :=
  CursorState.behaves_iff debug calls ⟨hptr,by norm_num⟩

/-- A read, a seek behind the end and a seek back. -/
theorem cursor_behaves_calls :
    CursorState.Behaves true ⟨fun _ ↦ 7,⟨4096,4⟩,0⟩
      [.read 3 none,.seek (.fromEnd 2),.seek (.start 4),.read 3 none] := by
  refine (cursor_behaves_iff true _ ⟨4096,4⟩ (by norm_num) _).mpr ⟨Nat.zero_le 4,?_⟩
  intro reply s' hread
  obtain rfl : s'=⟨fun _ ↦ 7,⟨4096,4⟩,3⟩ := (Prod.mk.inj (Option.some.inj hread)).2.symm
  refine ⟨show (4 : ℤ)+(2#64).toInt < 2^63 by decide,?_⟩
  intro reply s' hseek
  obtain rfl : s'=⟨fun _ ↦ 7,⟨4096,4⟩,6⟩ := (Prod.mk.inj (Option.some.inj hseek)).2.symm
  refine ⟨show ((4#64).toNat : ℤ) < 2^63 by decide,?_⟩
  intro reply s' hseek
  obtain rfl : s'=⟨fun _ ↦ 7,⟨4096,4⟩,4⟩ := (Prod.mk.inj (Option.some.inj hseek)).2.symm
  exact ⟨le_refl 4,fun _ _ _ ↦ trivial⟩

/-- After an accepted seek to one byte behind the end, a read panics. -/
theorem cursor_behaves_behind_end :
    ¬ CursorState.Behaves false ⟨fun _ ↦ 7,⟨4096,10⟩,0⟩ [.seek (.start 11),.read 1 none] := by
  rintro ⟨reply,s',hseek,-,reply',s'',hread,-⟩
  cases hseek
  exact nomatch hread

end Phantom
