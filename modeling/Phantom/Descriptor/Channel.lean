import Phantom.Descriptor.Status
import Mathlib.Logic.Function.Basic
import Mathlib.Order.Nat

/-! Channels: the two linked ends of a socket pair or of a unidirectional pipe, and when their
`READABLE` and `WRITABLE` bits tell the truth about the next receive and send. -/
namespace Phantom.Descriptor

inductive ChannelType where
  | NONE
  | READONLY
  | WRITEONLY
  deriving DecidableEq, Repr

/-- One end; `linked` says whether `linkedChannel` still points to the other end. -/
structure Channel where
  type : ChannelType
  linked : Bool
  buffer : List UInt8
  status : Status
  deriving DecidableEq, Repr

namespace Channel

/-- `CONFIG_PIPE_BUFFER_SIZE`. -/
def bufferSize : ℕ := 65536

def new (type : ChannelType) : Channel where
  type := type
  linked := false
  buffer := []
  status := if type=.READONLY then .ACTIVE else Status.ACTIVE.insert .WRITABLE

def adjustStatus (c : Channel) (bits : Status) (doSetBits : Bool) : Channel :=
  {c with status := c.status.adjust bits doSetBits}

def available (c : Channel) : ℕ := bufferSize - c.buffer.length

/-- Data from the other end arrives in the buffer. -/
def accept (c : Channel) (bytes : List UInt8) : Channel :=
  Channel.adjustStatus {c with buffer := c.buffer ++ bytes} .READABLE true

/-- Data leaves the buffer for the user. -/
def pop (c : Channel) (nBytes : ℕ) : Channel :=
  let c := {c with buffer := c.buffer.drop nBytes}
  if c.buffer=[] then c.adjustStatus .READABLE false else c

@[simp] lemma pop_type (c : Channel) (n : ℕ) : (c.pop n).type = c.type := by
  unfold pop; dsimp only; split <;> rfl
@[simp] lemma pop_linked (c : Channel) (n : ℕ) : (c.pop n).linked = c.linked := by
  unfold pop; dsimp only; split <;> rfl
@[simp] lemma pop_buffer (c : Channel) (n : ℕ) : (c.pop n).buffer = c.buffer.drop n := by
  unfold pop; dsimp only; split <;> rfl
@[simp] lemma pop_status (c : Channel) (n : ℕ) : (c.pop n).status =
    {c.status with readable := c.status.readable && !(c.buffer.drop n).isEmpty} := by
  unfold pop
  dsimp only
  split_ifs with h
  · simp [adjustStatus, h]
  · have hne : (c.buffer.drop n).isEmpty=false := by simpa using h
    rw [hne, Bool.not_false, Bool.and_true]

end Channel

inductive Side where
  | left
  | right
  deriving DecidableEq, Repr

def Side.peer : Side → Side
  | .left => .right
  | .right => .left

/-- How the code links channels: the two ends of `socketpair`, or a reader and a writer. -/
inductive Link where
  | socketpair
  | pipe (reader : Side)
  deriving DecidableEq, Repr

def Link.type : Link → Side → ChannelType
  | .socketpair,_ => .NONE
  | .pipe reader,s => if s=reader then .READONLY else .WRITEONLY

/-- The two ends; each operation may touch both. -/
abbrev Ends := Side → Channel

namespace Ends

/-- Two fresh channels, each set as the other's `linkedChannel`. -/
def new (link : Link) : Ends := fun s ↦ {Channel.new (link.type s) with linked := true}

def update (e : Ends) (s : Side) (f : Channel → Channel) : Ends := Function.update e s (f (e s))

/-- `channel_linkedWrite` on the receiving end `s`; `none` is a failed assertion. -/
def linkedWrite (e : Ends) (s : Side) (bytes : List UInt8) (fault : Bool) :
    Option (Except Errno ℕ × Ends) :=
  if (e s).type=.WRITEONLY then none
  else if (e s).available=0 then some (.error .EWOULDBLOCK,e)
  else if fault then some (.error .EFAULT,e)
  else
    let copyLength := min bytes.length (e s).available
    some (.ok copyLength,e.update s fun c ↦ c.accept (bytes.take copyLength))

/-- `channel_sendUserData`; `fault` says that the bytes cannot be read from plugin memory. -/
def sendUserData (e : Ends) (s : Side) (bytes : List UInt8) (fault : Bool) :
    Option (Except Errno ℕ × Ends) :=
  if (e s).type=.READONLY then none
  else if bytes=[] then some (.ok 0,e)
  else do
    let (result,e') ←
      if (e s).linked then e.linkedWrite s.peer bytes fault else some (.error .EPIPE,e)
    match result with
    | .error _ => some (result,e'.update s fun c ↦ c.adjustStatus .WRITABLE false)
    | .ok 0 => some (result,e'.update s fun c ↦ c.adjustStatus .WRITABLE false)
    | .ok _ => some (result,e')

/-- `channel_receiveUserData`; `fault` says that plugin memory cannot be written. -/
def receiveUserData (e : Ends) (s : Side) (nBytes : ℕ) (fault : Bool) :
    Option (Except Errno (List UInt8) × Ends) :=
  if (e s).type=.WRITEONLY then none
  else if nBytes=0 then some (.ok [],e)
  else if (e s).buffer=[] then
    if (e s).linked then some (.error .EWOULDBLOCK,e) else some (.ok [],e)
  else if fault then some (.error .EFAULT,e)
  else some (.ok ((e s).buffer.take nBytes),e.update s fun c ↦ c.pop nBytes)

/-- `descriptor_close` with `channel_close`: both ends forget their link. -/
def close (e : Ends) (s : Side) : Ends :=
  let e := e.update s fun c ↦ c.adjustStatus .CLOSED true
  if (e s).linked then
    let e := if (e s.peer).linked then e.update s.peer fun c ↦ {c with linked := false} else e
    e.update s fun c ↦ {c with linked := false}
  else e

inductive Op where
  | send (s : Side) (bytes : List UInt8) (fault : Bool)
  | receive (s : Side) (nBytes : ℕ) (fault : Bool)
  | close (s : Side)
  deriving DecidableEq, Repr

def step (e : Ends) : Op → Option Ends
  | .send s bytes fault => (e.sendUserData s bytes fault).map Prod.snd
  | .receive s nBytes fault => (e.receiveUserData s nBytes fault).map Prod.snd
  | .close s => some (e.close s)

/-- A send of some bytes would not block. -/
def CanSend (e : Ends) (s : Side) : Prop :=
  ∀ bytes fault r, bytes≠[] → e.sendUserData s bytes fault = some r →
    r.1 ≠ .error .EWOULDBLOCK

/-- A receive of some bytes would not block. -/
def CanReceive (e : Ends) (s : Side) : Prop :=
  ∀ nBytes fault r, nBytes≠0 → e.receiveUserData s nBytes fault = some r →
    r.1 ≠ .error .EWOULDBLOCK

/-- The status bits of the ends that are still open are exact. -/
def Ready (e : Ends) : Prop :=
  ∀ s, ¬(e s).status.closed →
    ((e s).type≠.READONLY → ((e s).status.writable ↔ e.CanSend s)) ∧
    ((e s).type≠.WRITEONLY → ((e s).status.readable ↔ e.CanReceive s))

/-- The bits are exact before, between and after the operations. -/
def StaysReady (e : Ends) : List Op → Prop
  | [] => e.Ready
  | op::ops => e.Ready ∧ ∀ e', e.step op = some e' → StaysReady e' ops

/-- The operation leaves the bits exact: a send neither fails nor fills the peer's buffer, a
receive after the peer's close leaves data behind, and a close finds data waiting at the peer. -/
def Smooth (e : Ends) : Op → Prop
  | .send s bytes fault => (e s).status.closed ∨ bytes=[] ∨
      ((e s).linked ∧ fault=false ∧ bytes.length < (e s.peer).available)
  | .receive s nBytes fault => (e s).status.closed ∨ (e s).linked ∨ (e s).buffer=[] ∨
      fault ∨ nBytes < (e s).buffer.length
  | .close s => ¬(e s).linked ∨ (e s.peer).type=.WRITEONLY ∨ (e s.peer).buffer≠[]

def Smoothly (e : Ends) : List Op → Prop
  | [] => True
  | op::ops => ∀ e', e.step op = some e' → e.Smooth op ∧ Smoothly e' ops

/-! Updates of one end. -/

@[simp] lemma peer_peer (s : Side) : s.peer.peer = s := by cases s <;> rfl
@[simp] lemma peer_ne (s : Side) : s.peer≠s := by cases s <;> simp [Side.peer]
@[simp] lemma ne_peer (s : Side) : s≠s.peer := by cases s <;> simp [Side.peer]

lemma forall_side (s : Side) {P : Side → Prop} : (∀ t, P t) ↔ P s ∧ P s.peer := by
  constructor
  · intro h
    exact ⟨h s,h s.peer⟩
  · rintro ⟨hs,hp⟩ t
    cases s <;> cases t <;> assumption

@[simp] lemma update_self (e : Ends) (s : Side) (f : Channel → Channel) :
    e.update s f s = f (e s) := Function.update_self ..

@[simp] lemma update_peer (e : Ends) (s : Side) (f : Channel → Channel) :
    e.update s f s.peer = e s.peer := Function.update_of_ne (peer_ne s) ..

@[simp] lemma update_peer_self (e : Ends) (s : Side) (f : Channel → Channel) :
    e.update s.peer f s = e s := Function.update_of_ne (ne_peer s) ..

/-! What the operations return and leave behind. -/

lemma sendUserData_cases {e : Ends} {s : Side} {bytes : List UInt8} {fault : Bool}
    {r : Except Errno ℕ × Ends} (h : e.sendUserData s bytes fault = some r) :
    (bytes=[] ∧ r = (.ok 0,e)) ∨
    (∃ err, r = (.error err,e.update s fun c ↦ c.adjustStatus .WRITABLE false) ∧ bytes≠[] ∧
      ((e s).linked=false ∧ err=.EPIPE ∨
        (e s).linked ∧ (e s.peer).available=0 ∧ err=.EWOULDBLOCK ∨
        (e s).linked ∧ (e s.peer).available≠0 ∧ fault ∧ err=.EFAULT)) ∨
    (bytes≠[] ∧ (e s).linked ∧ (e s.peer).available≠0 ∧ fault=false ∧
      (e s.peer).type≠.WRITEONLY ∧
      r = (.ok (min bytes.length (e s.peer).available),e.update s.peer fun c ↦
        c.accept (bytes.take (min bytes.length (e s.peer).available)))) := by
  unfold sendUserData at h
  split_ifs at h with h₁ h₂ h₃
  · exact .inl ⟨h₂,(Option.some.inj h).symm⟩
  · unfold linkedWrite at h
    split_ifs at h with h₄ h₅ h₆
    · simp at h
    · right; left
      refine ⟨.EWOULDBLOCK,(Option.some.inj h).symm,h₂,?_⟩
      simp [h₃, h₅]
    · right; left
      refine ⟨.EFAULT,(Option.some.inj h).symm,h₂,?_⟩
      simp [h₃, h₅, h₆]
    · right; right
      have hpos : min bytes.length (e s.peer).available ≠ 0 := by
        have := List.length_pos_iff.mpr h₂
        omega
      obtain ⟨k,hk⟩ := Nat.exists_eq_succ_of_ne_zero hpos
      simp only [hk] at h ⊢
      exact ⟨h₂,h₃,h₅,by simpa using h₆,h₄,(Option.some.inj h).symm⟩
  · right; left
    refine ⟨.EPIPE,(Option.some.inj h).symm,h₂,?_⟩
    simp [h₃]

lemma receiveUserData_cases {e : Ends} {s : Side} {n : ℕ} {fault : Bool}
    {r : Except Errno (List UInt8) × Ends} (h : e.receiveUserData s n fault = some r) :
    (r.2=e ∧ (n=0 ∨ (e s).buffer=[] ∨ fault) ∧
      (r.1 = .error .EWOULDBLOCK → (e s).buffer=[] ∧ (e s).linked)) ∨
    (n≠0 ∧ (e s).buffer≠[] ∧ fault=false ∧
      r = (.ok ((e s).buffer.take n),e.update s fun c ↦ c.pop n)) := by
  unfold receiveUserData at h
  split_ifs at h with h₁ h₂ h₃ h₄ h₅
  all_goals obtain rfl := Option.some.inj h
  · exact .inl ⟨rfl,.inl h₂,by simp⟩
  · exact .inl ⟨rfl,.inr (.inl h₃),fun _ ↦ ⟨h₃,h₄⟩⟩
  · exact .inl ⟨rfl,.inr (.inl h₃),by simp⟩
  · exact .inl ⟨rfl,.inr (.inr h₅),by simp⟩
  · exact .inr ⟨h₂,h₃,by simpa using h₅,rfl⟩

/-- Closing touches the end itself in its status and both ends in their links. -/
lemma close_self (e : Ends) (s : Side) :
    e.close s s = {(e s).adjustStatus .CLOSED true with linked := false} := by
  unfold close
  dsimp only
  split_ifs with h₁ h₂ <;> simp_all [Channel.adjustStatus]

lemma close_peer (e : Ends) (s : Side) (hsym : (e s).linked = (e s.peer).linked) :
    e.close s s.peer = {e s.peer with linked := false} := by
  have hlink : ((e.update s fun c ↦ c.adjustStatus .CLOSED true) s).linked = (e s).linked := by
    simp [Channel.adjustStatus]
  unfold close
  dsimp only
  rw [hlink, update_peer, ← hsym]
  cases hl : (e s).linked with
  | true => simp
  | false =>
    have hp : (e s.peer).linked=false := by rw [← hsym, hl]
    rw [if_neg (by simp), update_peer]
    rcases he : e s.peer with ⟨type,linked,buffer,status⟩
    simpa [he] using hp

lemma canSend_iff {e : Ends} {s : Side} (hs : (e s).type≠.READONLY)
    (hp : (e s.peer).type≠.WRITEONLY) :
    e.CanSend s ↔ ((e s).linked → (e s.peer).available≠0) := by
  constructor
  · intro h hl ha
    refine h [0] false (.error .EWOULDBLOCK,e.update s fun c ↦ c.adjustStatus .WRITABLE false)
      (by simp) ?_ rfl
    simp [sendUserData, linkedWrite, hs, hl, hp, ha]
  · intro h bytes fault r hb hr
    rcases sendUserData_cases hr with ⟨h₀,_⟩ | ⟨err,rfl,_,herr⟩ | ⟨_,_,_,_,_,rfl⟩
    · exact absurd h₀ hb
    · rcases herr with ⟨_,rfl⟩ | ⟨hl,ha,_⟩ | ⟨_,_,_,rfl⟩
      · simp
      · exact absurd ha (h hl)
      · simp
    · simp

lemma canReceive_iff {e : Ends} {s : Side} (hs : (e s).type≠.WRITEONLY) :
    e.CanReceive s ↔ (e s).buffer≠[] ∨ (e s).linked=false := by
  constructor
  · intro h
    by_contra hcon
    simp only [ne_eq, not_or, not_not, Bool.not_eq_false] at hcon
    refine h 1 false (.error .EWOULDBLOCK,e) (by simp) ?_ rfl
    simp [receiveUserData, hs, hcon]
  · intro h n fault r hn hr hblock
    rcases receiveUserData_cases hr with ⟨_,_,hb⟩ | ⟨_,_,_,rfl⟩
    · obtain ⟨hempty,hl⟩ := hb hblock
      rcases h with h | h
      · exact h hempty
      · simp [h] at hl
    · simp at hblock

/-! The invariant of the runs in which every operation is smooth. -/

/-- What holds of the end `c` whose peer is `p`: its buffer has room and its bits are exact. -/
structure Fits (c p : Channel) : Prop where
  linked_peer : c.linked = p.linked
  reader_peer : c.type=.READONLY → p.type=.WRITEONLY
  writer_peer : c.type=.WRITEONLY → p.type=.READONLY
  closed_unlinked : c.status.closed → c.linked=false
  room : c.linked → c.available≠0
  writable : ¬c.status.closed → c.type≠.READONLY → c.status.writable
  readable : ¬c.status.closed → c.type≠.WRITEONLY →
    (c.status.readable ↔ c.buffer≠[] ∨ c.linked=false)

def Inv (e : Ends) : Prop := ∀ s, Fits (e s) (e s.peer)

lemma inv_iff (s : Side) {e : Ends} : e.Inv ↔ Fits (e s) (e s.peer) ∧ Fits (e s.peer) (e s) := by
  unfold Inv
  rw [forall_side s, peer_peer]

namespace Inv
variable {e e' : Ends} {s : Side}

lemma new (link : Link) : (Ends.new link).Inv := by
  intro s
  constructor
  · rfl
  · cases link with
    | socketpair => simp [Ends.new, Channel.new, Link.type]
    | pipe reader => cases s <;> cases reader <;> simp [Ends.new, Channel.new, Link.type, Side.peer]
  · cases link with
    | socketpair => simp [Ends.new, Channel.new, Link.type]
    | pipe reader => cases s <;> cases reader <;> simp [Ends.new, Channel.new, Link.type, Side.peer]
  · simp only [Ends.new, Channel.new]
    split_ifs <;> simp [Status.insert, Status.zip, Status.WRITABLE, Status.ACTIVE]
  · simp [Ends.new, Channel.new, Channel.available, Channel.bufferSize]
  · intro _ ht
    have ht' : link.type s ≠ .READONLY := ht
    simp [Ends.new, Channel.new, ht', Status.insert, Status.zip, Status.WRITABLE]
  · simp only [Ends.new, Channel.new]
    split_ifs <;> simp [Status.insert, Status.zip, Status.WRITABLE, Status.ACTIVE]

/-- A writable end never faces a write-only peer. -/
lemma peer_type (h : e.Inv) (hs : (e s).type≠.READONLY) : (e s.peer).type≠.WRITEONLY := by
  intro hp
  have := (h s.peer).writer_peer hp
  rw [peer_peer] at this
  exact hs this

lemma ready (h : e.Inv) : e.Ready := by
  intro s hc
  refine ⟨fun ht ↦ ?_,fun ht ↦ ?_⟩
  · rw [canSend_iff ht (h.peer_type ht)]
    refine ⟨fun _ hl ↦ (h s.peer).room ?_,fun _ ↦ (h s).writable hc ht⟩
    rw [← (h s).linked_peer]
    exact hl
  · rw [canReceive_iff ht]
    exact (h s).readable hc ht

/-- A refused send costs an open end its `WRITABLE` bit although it is not blocked. -/
lemma refused_send (h : e.Inv) (ht : (e s).type≠.READONLY)
    (hready : Ready (e.update s fun c ↦ c.adjustStatus .WRITABLE false)) :
    (e s).status.closed := by
  by_contra hc
  have ht' : ((e.update s fun c ↦ c.adjustStatus .WRITABLE false) s).type≠.READONLY := by
    simpa [Channel.adjustStatus] using ht
  have hw := (hready s (by simpa [Channel.adjustStatus] using hc)).1 ht'
  rw [canSend_iff ht' (by simpa using h.peer_type ht)] at hw
  have hroom : (e s).linked → (e s.peer).available≠0 := by
    rw [(h s).linked_peer]
    exact (h s.peer).room
  simp only [update_self, update_peer, Channel.adjustStatus, Status.adjust_writable,
    Bool.false_eq_true, false_iff] at hw
  exact hw hroom

lemma send_smooth_of_ready (h : e.Inv) (hr : e.sendUserData s bytes fault = some r)
    (hready : r.2.Ready) : e.Smooth (.send s bytes fault) := by
  have ht : (e s).type≠.READONLY := by
    intro ht
    simp [sendUserData, ht] at hr
  rcases sendUserData_cases hr with ⟨h₀,_⟩ | ⟨err,rfl,_,_⟩ | ⟨hb,hl,ha,hfault,htp,rfl⟩
  · exact .inr (.inl h₀)
  · exact .inl (h.refused_send ht hready)
  · refine .inr (.inr ⟨hl,hfault,?_⟩)
    by_contra hlen
    have hc : ¬(e s).status.closed := by
      intro hc
      simp [(h s).closed_unlinked hc] at hl
    -- the peer's buffer is full now, but the sender's `WRITABLE` bit is still set
    have hw := (hready s (by simpa using hc)).1 (by simpa using ht)
    rw [canSend_iff (by simpa using ht) (by simpa [Channel.accept, Channel.adjustStatus] using htp)]
      at hw
    simp only [update_peer_self, update_self] at hw
    refine hw.mp ((h s).writable hc ht) hl ?_
    have hmin : min bytes.length (e s.peer).available = (e s.peer).available := by omega
    rw [hmin]
    simp only [Channel.accept, Channel.adjustStatus, Channel.available, List.length_append,
      List.length_take] at hlen ha ⊢
    omega

lemma send (h : e.Inv) (hr : e.sendUserData s bytes fault = some r)
    (hsmooth : e.Smooth (.send s bytes fault)) : r.2.Inv := by
  rcases sendUserData_cases hr with ⟨_,rfl⟩ | ⟨err,rfl,hb,herr⟩ | ⟨hb,hl,ha,_,_,rfl⟩
  · exact h
  · have hc : (e s).status.closed := by
      rcases hsmooth with hc | h₀ | ⟨hl,hfault,hlen⟩
      · exact hc
      · exact absurd h₀ hb
      · rcases herr with ⟨hl',_⟩ | ⟨_,ha,_⟩ | ⟨_,_,hf,_⟩
        · simp [hl'] at hl
        · omega
        · simp [hfault] at hf
    have hs := h s
    have hp := h s.peer
    rw [peer_peer] at hp
    refine (inv_iff s).mpr ⟨?_,?_⟩
    · simp only [update_self, update_peer]
      exact {hs with
        closed_unlinked := by simpa [Channel.adjustStatus] using hs.closed_unlinked
        writable := by simp [Channel.adjustStatus, hc]
        readable := by simp [Channel.adjustStatus, hc]}
    · simp only [update_self, update_peer]
      exact {hp with}
  · have hlen : bytes.length < (e s.peer).available := by
      rcases hsmooth with hc | h₀ | ⟨_,_,hlen⟩
      · simp [(h s).closed_unlinked hc] at hl
      · exact absurd h₀ hb
      · exact hlen
    have hs := h s
    have hp := h s.peer
    rw [peer_peer] at hp
    have htake : bytes.take (min bytes.length (e s.peer).available) = bytes := by
      rw [min_eq_left hlen.le, List.take_length]
    rw [htake]
    refine (inv_iff s).mpr ⟨?_,?_⟩
    · simp only [update_self, update_peer_self]
      exact {hs with}
    · simp only [update_self, update_peer_self]
      exact {hp with
        closed_unlinked := by
          simpa [Channel.accept, Channel.adjustStatus] using hp.closed_unlinked
        room := by
          intro _
          simp only [Channel.accept, Channel.adjustStatus, Channel.available,
            List.length_append] at hlen ⊢
          omega
        writable := by simpa [Channel.accept, Channel.adjustStatus] using hp.writable
        readable := by simp [Channel.accept, Channel.adjustStatus, hb]}

lemma receive_smooth_of_ready (hr : e.receiveUserData s n fault = some r)
    (hready : r.2.Ready) : e.Smooth (.receive s n fault) := by
  have ht : (e s).type≠.WRITEONLY := by
    intro ht
    simp [receiveUserData, ht] at hr
  by_contra hnot
  simp only [Smooth, not_or, not_lt, Bool.not_eq_true] at hnot
  obtain ⟨hc,hl,hb,hfault,hlen⟩ := hnot
  rcases receiveUserData_cases hr with ⟨_,h₀,_⟩ | ⟨_,_,_,rfl⟩
  · have hpos := List.length_pos_iff.mpr hb
    rcases h₀ with h₀ | h₀ | h₀
    · omega
    · exact hb h₀
    · simp [hfault] at h₀
  · -- the last byte after the peer's close takes the `READABLE` bit with it
    have hread := (hready s (by simpa using hc)).2 (by simpa using ht)
    rw [canReceive_iff (by simpa using ht)] at hread
    simp [hl, hlen] at hread

lemma receive (h : e.Inv) (hr : e.receiveUserData s n fault = some r)
    (hsmooth : e.Smooth (.receive s n fault)) : r.2.Inv := by
  rcases receiveUserData_cases hr with ⟨h₀,_⟩ | ⟨_,hb,hfault,rfl⟩
  · rw [h₀]
    exact h
  · have hs := h s
    have hp := h s.peer
    rw [peer_peer] at hp
    refine (inv_iff s).mpr ⟨?_,?_⟩
    · simp only [update_self, update_peer]
      constructor
      · simpa using hs.linked_peer
      · simpa using hs.reader_peer
      · simpa using hs.writer_peer
      · simpa using hs.closed_unlinked
      · intro hl
        have := hs.room (by simpa using hl)
        simp only [Channel.available, Channel.pop_buffer, List.length_drop] at this ⊢
        omega
      · simpa using hs.writable
      · intro hc ht
        have hc' : ¬(e s).status.closed := by simpa using hc
        have hread : (e s).status.readable :=
          (hs.readable hc' (by simpa using ht)).mpr (.inl hb)
        rcases hsmooth with hcl | hl | hempty | hf | hlen
        · exact absurd hcl hc'
        · simp [hread, hl]
        · exact absurd hempty hb
        · simp [hfault] at hf
        · simp [hread, hlen]
    · simp only [update_self, update_peer]
      exact {hp with
        linked_peer := by simpa using hp.linked_peer
        reader_peer := by simpa using hp.reader_peer
        writer_peer := by simpa using hp.writer_peer}

lemma close_smooth_of_ready (h : e.Inv) (hready : (e.close s).Ready) : e.Smooth (.close s) := by
  by_contra hnot
  simp only [Smooth, not_or, not_not, ne_eq] at hnot
  obtain ⟨hl,ht,hb⟩ := hnot
  have hlp : (e s.peer).linked := by rw [← (h s).linked_peer]; exact hl
  have hc : ¬(e s.peer).status.closed := by
    intro hc
    simp [(h s.peer).closed_unlinked hc] at hlp
  have hpeer := e.close_peer s (h s).linked_peer
  have hread := (hready s.peer (by simpa [hpeer] using hc)).2 (by simpa [hpeer] using ht)
  rw [canReceive_iff (by simpa [hpeer] using ht)] at hread
  have hold := (h s.peer).readable hc ht
  simp [hb, hlp] at hold
  simp [hpeer, hold] at hread

lemma close (h : e.Inv) (hsmooth : e.Smooth (.close s)) : (e.close s).Inv := by
  have hs := h s
  have hp := h s.peer
  rw [peer_peer] at hp
  refine (inv_iff s).mpr ⟨?_,?_⟩
  · rw [close_self, close_peer e s hs.linked_peer]
    exact {
      linked_peer := rfl
      reader_peer := hs.reader_peer
      writer_peer := hs.writer_peer
      closed_unlinked := fun _ ↦ rfl
      room := by simp
      writable := by simp [Channel.adjustStatus]
      readable := by simp [Channel.adjustStatus]}
  · rw [close_self, close_peer e s hs.linked_peer]
    exact {
      linked_peer := rfl
      reader_peer := hp.reader_peer
      writer_peer := hp.writer_peer
      closed_unlinked := fun _ ↦ rfl
      room := by simp
      writable := hp.writable
      readable := by
        intro hc ht
        have hread := hp.readable hc ht
        rw [← hs.linked_peer] at hread
        rcases hsmooth with hl | htype | hb
        · simp only [Bool.not_eq_true] at hl
          simp [hread, hl]
        · exact absurd htype ht
        · simp [hread, hb]}

/-- From the invariant, one operation keeps the bits exact just when it is smooth. -/
lemma ready_step_iff (h : e.Inv) (hstep : e.step op = some e') :
    e'.Ready ↔ e.Smooth op := by
  cases op with
  | send s bytes fault =>
    obtain ⟨r,hr,rfl⟩ := Option.map_eq_some_iff.mp hstep
    exact ⟨h.send_smooth_of_ready hr,fun hsm ↦ (h.send hr hsm).ready⟩
  | receive s n fault =>
    obtain ⟨r,hr,rfl⟩ := Option.map_eq_some_iff.mp hstep
    exact ⟨receive_smooth_of_ready hr,fun hsm ↦ (h.receive hr hsm).ready⟩
  | close s =>
    obtain rfl := Option.some.inj hstep
    exact ⟨h.close_smooth_of_ready,fun hsm ↦ (h.close hsm).ready⟩

lemma step (h : e.Inv) (hstep : e.step op = some e') (hsm : e.Smooth op) : e'.Inv := by
  cases op with
  | send s bytes fault =>
    obtain ⟨r,hr,rfl⟩ := Option.map_eq_some_iff.mp hstep
    exact h.send hr hsm
  | receive s n fault =>
    obtain ⟨r,hr,rfl⟩ := Option.map_eq_some_iff.mp hstep
    exact h.receive hr hsm
  | close s =>
    obtain rfl := Option.some.inj hstep
    exact h.close hsm

end Inv

lemma StaysReady.ready {e : Ends} {ops : List Op} (h : e.StaysReady ops) : e.Ready := by
  cases ops with
  | nil => exact h
  | cons op ops => exact h.1

/-- The bits stay exact along a run exactly when every operation of it is smooth. -/
theorem staysReady_iff_smoothly (link : Link) (ops : List Op) :
    (new link).StaysReady ops ↔ (new link).Smoothly ops := by
  have hinv := Inv.new link
  generalize new link = e at hinv
  induction ops generalizing e with
  | nil => exact ⟨fun _ ↦ trivial,fun _ ↦ hinv.ready⟩
  | cons op ops ih =>
    constructor
    · intro h e' hstep
      have hrun := h.2 e' hstep
      have hsm := (hinv.ready_step_iff hstep).mp hrun.ready
      exact ⟨hsm,(ih e' (hinv.step hstep hsm)).mp hrun⟩
    · intro h
      refine ⟨hinv.ready,fun e' hstep ↦ ?_⟩
      obtain ⟨hsm,hrun⟩ := h e' hstep
      exact (ih e' (hinv.step hstep hsm)).mpr hrun

/-- Closing one end of a fresh pair leaves the other unreadable although it has reached the
end of the stream. -/
theorem close_leaves_peer_unreadable : ¬(new .socketpair).StaysReady [.close .left] := by
  intro h
  have hready := h.2 _ rfl
  have := (hready .right (by decide)).2 (by decide)
  rw [canReceive_iff (by decide)] at this
  revert this
  decide

end Ends

end Phantom.Descriptor
