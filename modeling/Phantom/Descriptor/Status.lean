import Mathlib.Data.Bool.Basic
import Mathlib.Tactic.Common

/-! The status bits of descriptors and files, the listeners that watch their transitions, and the
error codes of the operations on descriptors. -/
namespace Phantom.Descriptor

inductive Errno where
  | EBADF
  | EFAULT
  | EINVAL
  | EMSGSIZE
  | EPIPE
  | ESPIPE
  | EWOULDBLOCK
  deriving DecidableEq, Repr

/-- The bit field `Status`, one Boolean for each bit. -/
@[ext] structure Status where
  active : Bool := false
  readable : Bool := false
  writable : Bool := false
  closed : Bool := false
  futexWakeup : Bool := false
  deriving DecidableEq, Repr

namespace Status

def ACTIVE : Status := {active := true}
def READABLE : Status := {readable := true}
def WRITABLE : Status := {writable := true}
def CLOSED : Status := {closed := true}
def FUTEX_WAKEUP : Status := {futexWakeup := true}

/-- Bitwise combination of two status words. -/
def zip (f : Bool → Bool → Bool) (a b : Status) : Status where
  active := f a.active b.active
  readable := f a.readable b.readable
  writable := f a.writable b.writable
  closed := f a.closed b.closed
  futexWakeup := f a.futexWakeup b.futexWakeup

def insert (a b : Status) : Status := zip (· || ·) a b
def remove (a b : Status) : Status := zip (fun x y ↦ x && !y) a b
def inter (a b : Status) : Status := zip (· && ·) a b
def xor (a b : Status) : Status := zip Bool.xor a b

def isEmpty (a : Status) : Bool :=
  !(a.active || a.readable || a.writable || a.closed || a.futexWakeup)

def intersects (a b : Status) : Bool := !(a.inter b).isEmpty

/-- `descriptor_adjustStatus` and `FileStatus::set`: set or clear the given bits. -/
def adjust (a bits : Status) (doSetBits : Bool) : Status :=
  if doSetBits then a.insert bits else a.remove bits

@[simp] lemma adjust_readable (a : Status) (b : Bool) :
    a.adjust READABLE b = {a with readable := b} := by
  cases b <;> simp [adjust, insert, remove, zip, READABLE]

@[simp] lemma adjust_writable (a : Status) (b : Bool) :
    a.adjust WRITABLE b = {a with writable := b} := by
  cases b <;> simp [adjust, insert, remove, zip, WRITABLE]

@[simp] lemma adjust_closed (a : Status) (b : Bool) :
    a.adjust CLOSED b = {a with closed := b} := by
  cases b <;> simp [adjust, insert, remove, zip, CLOSED]

@[simp] lemma xor_isEmpty (a b : Status) : (a.xor b).isEmpty ↔ a=b := by
  rcases a with ⟨a₁,a₂,a₃,a₄,a₅⟩
  rcases b with ⟨b₁,b₂,b₃,b₄,b₅⟩
  simp [xor, zip, isEmpty, and_assoc]

@[simp] lemma intersects_readable (a : Status) : READABLE.intersects a = a.readable := by
  simp [intersects, inter, zip, isEmpty, READABLE]

@[simp] lemma intersects_writable (a : Status) : WRITABLE.intersects a = a.writable := by
  simp [intersects, inter, zip, isEmpty, WRITABLE]

section
variable {a b m : Status}

lemma masked_xor : ∀ m a b : Bool, (m && Bool.xor a b)=false ↔ (m && a)=(m && b) := by decide

lemma not_intersects_xor : m.intersects (a.xor b)=false ↔ m.inter a=m.inter b := by
  simp only [intersects,inter,xor,zip,isEmpty,Status.mk.injEq,Bool.not_not,Bool.or_eq_false_iff,
    masked_xor,and_assoc]

lemma isEmpty_of_intersects (h : m.intersects a=true) : a.isEmpty=false := by
  rcases a with ⟨a₁,a₂,a₃,a₄,a₅⟩
  rcases m with ⟨m₁,m₂,m₃,m₄,m₅⟩
  simp only [intersects,inter,zip,isEmpty] at h ⊢
  grind

end

end Status

/-- A status word and the bits that changed, as handed to a listener. -/
structure Change where
  status : Status
  changed : Status
  deriving DecidableEq, Repr

/-- `_descriptor_handleStatusChange` and `handle_status_change`: listeners are told only when
some bit flipped. -/
def handleStatusChange (old new : Status) : List Change :=
  let statusesChanged := new.xor old
  if statusesChanged.isEmpty then [] else [⟨new,statusesChanged⟩]

/-- `StatusListenerFilter`: which transitions of the monitored bits reach the callback. -/
inductive Filter where
  | never
  | offToOn
  | onToOff
  | always
  deriving DecidableEq, Repr

/-- The part of a `StatusListener` that decides whether its callback runs. -/
structure StatusListener where
  monitoring : Status
  filter : Filter
  deriving DecidableEq, Repr

/-- `_statuslistener_shouldNotify`. -/
def StatusListener.shouldNotify (l : StatusListener) (current transitions : Status) : Bool :=
  let flipped := l.monitoring.intersects transitions
  let on := l.monitoring.intersects current
  match l.filter with
  | .offToOn => flipped && on
  | .onToOff => flipped && !on
  | .always => flipped
  | .never => false

/-- The listener of a thread that waits for the given bits. -/
def StatusListener.waiting (bits : Status) : StatusListener := ⟨bits,.offToOn⟩

def StatusListener.hears (l : StatusListener) (changes : List Change) : Prop :=
  ∃ c ∈ changes, l.shouldNotify c.status c.changed

instance (l : StatusListener) (changes : List Change) : Decidable (l.hears changes) :=
  inferInstanceAs (Decidable (∃ c ∈ changes, _))

@[simp] lemma not_hears_nil (l : StatusListener) : ¬l.hears [] := by
  simp [StatusListener.hears]

lemma hears_append (l : StatusListener) (cs ds : List Change) :
    l.hears (cs ++ ds) ↔ l.hears cs ∨ l.hears ds := by
  simp [StatusListener.hears, or_and_right, exists_or]

/-- A waiting thread hears a change that turns some of its bits on while all of them were off. -/
lemma hears_of_off_on {bits old new : Status} (hoff : bits.intersects old = false)
    (hon : bits.intersects new) :
    (StatusListener.waiting bits).hears (handleStatusChange old new) := by
  have hne : ¬(new.xor old).isEmpty := by
    intro h
    rw [(Status.xor_isEmpty new old).mp h, hoff] at hon
    cases hon
  have hflip : bits.intersects (new.xor old) := by
    simp only [Status.intersects, Status.inter, Status.zip, Status.isEmpty, Status.xor,
      Bool.not_not, Bool.or_eq_true, Bool.or_eq_false_iff, Bool.and_eq_true] at hoff hon ⊢
    grind
  exact ⟨⟨new,new.xor old⟩,by simp [handleStatusChange, hne],
    by simp [StatusListener.waiting, StatusListener.shouldNotify, hflip, hon]⟩

/-- A single status change is heard by a writer just when `WRITABLE` goes from off to on. -/
lemma hears_writable (old new : Status) :
    (StatusListener.waiting .WRITABLE).hears (handleStatusChange old new) ↔
      old.writable=false ∧ new.writable := by
  unfold handleStatusChange StatusListener.hears
  dsimp only
  split_ifs with h
  · obtain rfl := (Status.xor_isEmpty new old).mp h
    simp
  · simp only [List.mem_singleton, exists_eq_left, StatusListener.waiting,
      StatusListener.shouldNotify, Status.intersects_writable, Status.xor, Status.zip]
    cases old.writable <;> cases new.writable <;> simp

end Phantom.Descriptor
