import Phantom.Tcp.ServerRun

/-! The queue of the children that wait to be accepted, over every run of a listening socket: what
packets, close timers and accepts make of it. -/
namespace Phantom
namespace Tcp

open Endpoint

namespace Server

variable {s : Server} {c d : Child}

/-- The objects of a listening socket have different handles, also those that have left the table. -/
structure Objects (s : Server) : Prop where
  table : Table s
  apart : ∀ c ∈ s.children, ∀ d ∈ s.removed, c.handle ≠ d.handle
  removed_lt : ∀ d ∈ s.removed, d.handle<s.nextHandle

lemma objects_listen (env : Env) (r w : ℕ) : Objects (listen env r w) :=
  ⟨(Routed.listen env r w).table,fun _ h ↦ absurd h List.not_mem_nil,
    fun _ h ↦ absurd h List.not_mem_nil⟩

lemma Objects.object_eq (h : Objects s) (hc : c ∈ s.children) : s.object c.handle=some c := by
  unfold object
  cases hf : (s.children++s.removed).find? fun d ↦ d.handle=c.handle with
  | none =>
    have := List.find?_eq_none.mp hf c (List.mem_append_left _ hc)
    simp at this
  | some d =>
    have hd : d.handle=c.handle := by simpa using List.find?_some hf
    rcases List.mem_append.mp (List.mem_of_find?_eq_some hf) with hm | hm
    · rw [h.table.eq_of_handle hm hc hd]
    · exact absurd hd.symm (h.apart c hc d hm)

lemma mem_of_object {n : ℕ} (h : s.object n=some c) : c ∈ s.children++s.removed ∧ c.handle=n :=
  ⟨List.mem_of_find?_eq_some h,by simpa using List.find?_some h⟩

lemma mem_removed_replace {c' : Child} (hd : d ∈ (s.replace c').removed) :
    ∃ e ∈ s.removed, e.handle=d.handle := by
  obtain ⟨e,he,rfl⟩ := List.mem_map.mp hd
  refine ⟨e,he,?_⟩
  split_ifs with hh
  · exact hh
  · rfl

lemma Table.replace_object (h : Objects s) {c' : Child} (hc : c ∈ s.children++s.removed)
    (hh : c'.handle=c.handle) (hk : c'.key=c.key)
    (hf : c ∈ s.children → c'.socket.flags.shouldSendWrFin=false) : Table (s.replace c') := by
  rcases List.mem_append.mp hc with hc | hc
  · exact h.table.replace hc hh hk (hf hc)
  · have hsame : (s.replace c').children=s.children := by
      unfold Server.replace
      dsimp only
      conv_rhs => rw [← List.map_id s.children]
      apply List.map_congr_left
      intro d hd
      rw [if_neg]
      · rfl
      · rw [hh]
        exact h.apart d hd c hc
    have hnext : (s.replace c').nextHandle=s.nextHandle := rfl
    refine ⟨?_,?_,?_,?_⟩
    · rw [hsame]
      exact h.table.handles
    · rw [hsame]
      exact h.table.keys
    · rw [hsame,hnext]
      exact h.table.handle_lt
    · rw [hsame]
      exact h.table.no_fin

lemma Objects.replace (h : Objects s) {c' : Child} (hc : c ∈ s.children++s.removed)
    (hh : c'.handle=c.handle) (hk : c'.key=c.key)
    (hf : c ∈ s.children → c'.socket.flags.shouldSendWrFin=false) : Objects (s.replace c') := by
  have handles : ∀ e ∈ (s.replace c').children, ∃ e' ∈ s.children, e'.handle=e.handle := by
    intro e he
    obtain ⟨e',he',rfl⟩ := List.mem_map.mp he
    refine ⟨e',he',?_⟩
    split_ifs with hne
    · exact hne
    · rfl
  refine ⟨Table.replace_object h hc hh hk hf,?_,?_⟩
  · intro e he d hd
    obtain ⟨e',he',hee⟩ := handles e he
    obtain ⟨d',hd',hdd⟩ := mem_removed_replace hd
    rw [← hee,← hdd]
    exact h.apart e' he' d' hd'
  · intro d hd
    obtain ⟨d',hd',hdd⟩ := mem_removed_replace hd
    rw [← hdd]
    exact h.removed_lt d' hd'

lemma Objects.unlink (h : Objects s) (k : ℕ) : Objects (s.unlink k) := by
  refine ⟨h.table.unlink k,?_,?_⟩
  · intro e he d hd
    obtain ⟨hec,hek⟩ := List.mem_filter.mp he
    rcases List.mem_append.mp hd with hd | hd
    · exact h.apart e hec d hd
    · obtain ⟨hdc,hdk⟩ := List.mem_filter.mp hd
      intro heq
      rw [h.table.eq_of_handle hec hdc heq] at hek
      simp at hek hdk
      exact hek hdk
  · intro d hd
    rcases List.mem_append.mp hd with hd | hd
    · exact h.removed_lt d hd
    · exact h.table.handle_lt d (List.mem_filter.mp hd).1

/-- No pending child has the key of the object. -/
def Spares (s : Server) (c : Child) : Prop :=
  ∀ d ∈ s.children, d.key=c.key → d.handle ∉ s.pending

/-- What an event must meet: a reset reaches no established child that waits to be accepted, and no
close timer and no release of an object takes the key of a waiting child from the table. -/
def Attends (s : Server) : ServerEvent → Prop
  | .packet a => a.packet.flags.rst=true → ∀ c, s.getSourceTCP a.peer=some c →
      c.socket.state=.established → c.handle ∉ s.pending
  | .closeTimer handle _ _ => ∀ c, s.object handle=some c → 0<c.socket.closeTasks → s.Spares c
  | .accept => True
  | .free handle => ∀ c, (s.removed.find? fun c ↦ c.handle=handle)=some c → s.Spares c

end Server

open Server

/-- A listening socket with the children that have completed their handshakes and the ones that have
been handed out, both in order. -/
structure Served where
  server : Server
  completed : List ℕ
  handedOut : List ℕ

namespace Served

def listen (env : Env) (receiveBufSize sendBufSize : ℕ) : Served :=
  ⟨.listen env receiveBufSize sendBufSize,[],[]⟩

def step (r : Served) (e : ServerEvent) : Served :=
  ⟨r.server.step e,r.completed++r.server.completedBy e,r.handedOut++r.server.handedOutBy e⟩

/-- The queue holds the children that have completed their handshakes and have not been accepted,
each once and each of them in the table, the listener is readable for them, no child is handed out
twice, and the one that an accept would hand out is in the table, neither reset nor closed. -/
structure Queued (r : Served) : Prop where
  pending_iff : ∀ n, n ∈ r.server.pending ↔ n ∈ r.completed ∧ n ∉ r.handedOut
  once : r.server.pending.Nodup
  present : ∀ n ∈ r.server.pending, ∃ c ∈ r.server.children, c.handle=n
  readable_iff : r.server.readable=true ↔ r.server.pending ≠ []
  handedOnce : r.handedOut.Nodup
  live : ∀ n ∈ r.server.handedOutBy .accept, ∃ c ∈ r.server.children,
    c.handle=n ∧ c.socket.error.connectionReset=false ∧ c.socket.state ≠ .closed

/-- How far a child in the table is: its handshake is under way, it is open or has been closed by its
peer, or it has been reset, which no waiting child is. -/
inductive Phase (r : Served) (c : Child) : Prop
  | shaking (state : c.socket.state=.synReceived) (reset : c.socket.error.connectionReset=false)
      (new : c.handle ∉ r.completed)
  | serving (state : c.socket.state=.established ∨ c.socket.state=.closeWait)
      (reset : c.socket.error.connectionReset=false)
  | gone (state : c.socket.state=.timeWait) (accepted : c.handle ∉ r.server.pending)

/-- What every step keeps. -/
structure Kept (r : Served) : Prop where
  objects : Objects r.server
  phase : ∀ c ∈ r.server.children, Phase r c
  pending_iff : ∀ n, n ∈ r.server.pending ↔ n ∈ r.completed ∧ n ∉ r.handedOut
  once : r.server.pending.Nodup
  present : ∀ n ∈ r.server.pending, ∃ c ∈ r.server.children, c.handle=n
  readable_iff : r.server.readable=true ↔ r.server.pending ≠ []
  handedOnce : r.handedOut.Nodup
  completed_lt : ∀ n ∈ r.completed, n<r.server.nextHandle
  handed_completed : ∀ n ∈ r.handedOut, n ∈ r.completed

variable {r : Served} {c d : Child} {a : Arrival}

lemma kept_listen (env : Env) (receiveBufSize sendBufSize : ℕ) :
    Kept (listen env receiveBufSize sendBufSize) where
  objects := objects_listen env receiveBufSize sendBufSize
  phase _ h := absurd h List.not_mem_nil
  pending_iff n := ⟨fun h ↦ absurd h List.not_mem_nil,fun h ↦ absurd h.1 List.not_mem_nil⟩
  once := List.nodup_nil
  present _ h := absurd h List.not_mem_nil
  readable_iff := ⟨fun h ↦ (by cases h),fun h ↦ absurd rfl h⟩
  handedOnce := List.nodup_nil
  completed_lt _ h := absurd h List.not_mem_nil
  handed_completed _ h := absurd h List.not_mem_nil

/-- A step that neither completes a handshake nor hands out a child, and takes no waiting child from
the table. -/
lemma Kept.frame (h : Kept r) {s : Server} (objects : Objects s)
    (hpending : s.pending=r.server.pending) (hreadable : s.readable=r.server.readable)
    (hnext : r.server.nextHandle ≤ s.nextHandle)
    (phase : ∀ c ∈ s.children, Phase ⟨s,r.completed,r.handedOut⟩ c)
    (present : ∀ n ∈ r.server.pending, ∃ c ∈ s.children, c.handle=n) :
    Kept ⟨s,r.completed,r.handedOut⟩ where
  objects := objects
  phase := phase
  pending_iff n := by
    rw [hpending]
    exact h.pending_iff n
  once := by
    rw [hpending]
    exact h.once
  present n hn := present n (hpending ▸ hn)
  readable_iff := by
    rw [hpending,hreadable]
    exact h.readable_iff
  handedOnce := h.handedOnce
  completed_lt n hn := (h.completed_lt n hn).trans_le hnext
  handed_completed := h.handed_completed

/-- A child goes on as it is when the queue and the completed handshakes do not name it anew. -/
lemma Phase.mono {r' : Served} (h : Phase r c)
    (hcompleted : c.handle ∈ r'.completed → c.handle ∈ r.completed)
    (hpending : c.handle ∈ r'.server.pending → c.handle ∈ r.server.pending) : Phase r' c := by
  cases h with
  | shaking state reset new => exact .shaking state reset (mt hcompleted new)
  | serving state reset => exact .serving state reset
  | gone state accepted => exact .gone state (mt hpending accepted)

lemma Kept.serving (h : Kept r) (hc : c ∈ r.server.children) (hp : c.handle ∈ r.server.pending) :
    (c.socket.state=.established ∨ c.socket.state=.closeWait) ∧
      c.socket.error.connectionReset=false := by
  have hcompleted := ((h.pending_iff _).mp hp).1
  cases h.phase c hc with
  | shaking state reset new => exact absurd hcompleted new
  | serving state reset => exact ⟨state,reset⟩
  | gone state accepted => exact absurd hp accepted

/-! Close timers and releases. -/

lemma Kept.shrink (h : Kept r) {s : Server} (objects : Objects s)
    (hchildren : ∀ e, e ∈ s.children ↔ e ∈ r.server.children ∧ e.key ≠ c.key)
    (hspares : r.server.Spares c) (hpending : s.pending=r.server.pending)
    (hreadable : s.readable=r.server.readable) (hnext : s.nextHandle=r.server.nextHandle) :
    Kept ⟨s,r.completed,r.handedOut⟩ := by
  refine h.frame objects hpending hreadable hnext.ge ?_ ?_
  · intro e he
    refine (h.phase e ((hchildren e).mp he).1).mono id ?_
    dsimp only
    rw [hpending]
    exact id
  · intro n hn
    obtain ⟨e,he,rfl⟩ := h.present n hn
    exact ⟨e,(hchildren e).mpr ⟨he,fun hk ↦ hspares e he hk hn⟩,rfl⟩

lemma mem_replace_unlink {s : Server} (h : Objects s) {c' : Child}
    (hc : c ∈ s.children++s.removed) (hh : c'.handle=c.handle) (hk : c'.key=c.key) (e : Child) :
    e ∈ ((s.replace c').unlink c'.key).children ↔ e ∈ s.children ∧ e.key ≠ c.key := by
  have hne : ∀ e ∈ s.children, e.key ≠ c.key → e.handle ≠ c'.handle := by
    intro e he hek heq
    rw [hh] at heq
    rcases List.mem_append.mp hc with hc | hc
    · exact hek (by rw [h.table.eq_of_handle he hc heq])
    · exact h.apart e he c hc heq
  unfold unlink
  dsimp only
  rw [List.mem_filter,decide_eq_true_eq,hk]
  constructor
  · rintro ⟨he,hek⟩
    rcases mem_replace he with rfl | ⟨he,-⟩
    · exact absurd hk hek
    · exact ⟨he,hek⟩
  · rintro ⟨he,hek⟩
    refine ⟨List.mem_map.mpr ⟨e,he,?_⟩,hek⟩
    rw [if_neg (hne e he hek)]

lemma control_setState_closed (t : Endpoint) :
    (t.setState .closed).state=.closed ∧ (t.setState .closed).flags=t.flags := by
  have hclear := control_clearRetransmit {t with state := .closed} (2^32-1)
  exact ⟨congrArg Control.state hclear,congrArg Control.flags hclear⟩

lemma Kept.closeTimer (h : Kept r) (hc : c ∈ r.server.children++r.server.removed)
    (hspares : r.server.Spares c) (now : ℕ) (takes : List ℕ) :
    Kept ⟨r.server.closeTimer c now takes,r.completed,r.handedOut⟩ := by
  generalize hc' : ({c with
    socket := (c.socket.atTime now takes).runCloseTimerExpiredTask} : Child)=c'
  have hh : c'.handle=c.handle := by rw [← hc']
  have hk : c'.key=c.key := by rw [← hc']; rfl
  have hclosed : c'.socket.state=.closed := by
    rw [← hc']
    exact (control_setState_closed _).1
  have hfin : c ∈ r.server.children → c'.socket.flags.shouldSendWrFin=false := by
    intro hmem
    have hflags : c'.socket.flags=c.socket.flags := by
      rw [← hc']
      exact (control_setState_closed _).2
    rw [hflags]
    exact h.objects.table.no_fin c hmem
  have hclose : r.server.closeTimer c now takes=(r.server.replace c').unlinkClosed c' := by
    rw [← hc']
    rfl
  rw [hclose,unlinkClosed,if_pos hclosed]
  exact h.shrink (c := c) ((h.objects.replace hc hh hk hfin).unlink _)
    (mem_replace_unlink h.objects hc hh hk) hspares rfl rfl rfl

lemma Kept.free (h : Kept r) (hspares : r.server.Spares c) :
    Kept ⟨r.server.free c,r.completed,r.handedOut⟩ := by
  have hunlink := h.objects.unlink c.key
  have hobjects : Objects (r.server.free c) := by
    refine ⟨?_,?_,?_⟩
    · exact ⟨hunlink.table.handles,hunlink.table.keys,hunlink.table.handle_lt,hunlink.table.no_fin⟩
    · exact fun e he d hd ↦ hunlink.apart e he d (List.mem_filter.mp hd).1
    · exact fun d hd ↦ hunlink.removed_lt d (List.mem_filter.mp hd).1
  refine h.shrink (c := c) hobjects ?_ hspares rfl rfl rfl
  intro e
  unfold Server.free unlink
  dsimp only
  rw [List.mem_filter,decide_eq_true_eq]

/-! Accepts. -/

lemma Kept.head (h : Kept r) {n : ℕ} {rest : List ℕ} (hp : r.server.pending=n::rest) :
    ∃ c ∈ r.server.children, c.handle=n ∧ isReset c=false ∧
      ({r.server with pending := rest} : Server).object n=some c := by
  have hn : n ∈ r.server.pending := hp ▸ List.mem_cons_self
  obtain ⟨c,hc,rfl⟩ := h.present n hn
  refine ⟨c,hc,rfl,?_,h.objects.object_eq hc⟩
  have hreset := (h.serving hc hn).2
  unfold isReset
  apply decide_eq_false
  intro he
  rw [he] at hreset
  cases hreset

lemma acceptServerPeer_eq (h : Kept r) {n : ℕ} {rest : List ℕ} (hp : r.server.pending=n::rest) :
    ∃ c ∈ r.server.children, c.handle=n ∧ r.server.acceptServerPeer=(.ok n,
      {({r.server with pending := rest} : Server).replace (markAccepted c) with
        readable := !rest.isEmpty}) := by
  obtain ⟨c,hc,hn,hreset,hobject⟩ := h.head hp
  refine ⟨c,hc,hn,?_⟩
  unfold acceptServerPeer
  rw [hp]
  dsimp only
  rw [hobject]
  dsimp only
  rw [hreset]
  rfl

lemma Kept.accept (h : Kept r) : Kept (r.step .accept) := by
  cases hp : r.server.pending with
  | nil =>
    have haccept : r.server.acceptServerPeer=(.error .ewouldblock,{r.server with readable := false}) := by
      unfold acceptServerPeer
      dsimp only
      rw [hp]
    have hoff : r.server.readable=false := by
      rw [← Bool.not_eq_true,h.readable_iff,hp]
      exact not_not.mpr rfl
    have hsame : ({r.server with readable := false} : Server)=r.server := by rw [← hoff]
    unfold step Server.step completedBy handedOutBy
    dsimp only
    rw [haccept,hsame,List.append_nil,List.append_nil]
    exact h
  | cons n rest =>
    obtain ⟨c,hc,hn,haccept⟩ := acceptServerPeer_eq h hp
    have hmem : n ∈ r.server.pending := hp ▸ List.mem_cons_self
    have hnodup := h.once
    rw [hp,List.nodup_cons] at hnodup
    have hnew : n ∉ r.handedOut := ((h.pending_iff n).mp hmem).2
    have hobjects : Objects (r.server.replace (markAccepted c)) :=
      h.objects.replace (List.mem_append_left _ hc) rfl rfl fun _ ↦ h.objects.table.no_fin c hc
    unfold step Server.step completedBy handedOutBy
    dsimp only
    rw [haccept,List.append_nil]
    exact {
      objects := ⟨⟨hobjects.table.handles,hobjects.table.keys,hobjects.table.handle_lt,
        hobjects.table.no_fin⟩,hobjects.apart,hobjects.removed_lt⟩
      phase := fun d hd ↦ by
        have hrest : ∀ m, m ∈ rest → m ∈ r.server.pending := fun m hm ↦ hp ▸ List.mem_cons_of_mem n hm
        rcases mem_replace hd with rfl | ⟨hd,-⟩
        · obtain ⟨hstate,hreset⟩ := h.serving hc (hn ▸ hmem)
          exact .serving hstate hreset
        · exact (h.phase d hd).mono id (hrest _)
      pending_iff := fun m ↦ by
        change m ∈ rest ↔ m ∈ r.completed ∧ m ∉ r.handedOut++[n]
        have hm := h.pending_iff m
        rw [hp,List.mem_cons] at hm
        rw [List.mem_append,List.mem_singleton,not_or]
        constructor
        · intro hr
          obtain ⟨hcompleted,hout⟩ := hm.mp (Or.inr hr)
          exact ⟨hcompleted,hout,fun he ↦ hnodup.1 (he ▸ hr)⟩
        · rintro ⟨hcompleted,hout,hne⟩
          exact (hm.mpr ⟨hcompleted,hout⟩).resolve_left hne
      once := hnodup.2
      present := fun m hm ↦ by
        obtain ⟨d,hd,rfl⟩ := h.present m (hp ▸ List.mem_cons_of_mem n hm)
        refine ⟨_,List.mem_map_of_mem hd,?_⟩
        split_ifs with he
        · exact he.symm
        · rfl
      readable_iff := by
        change (!rest.isEmpty)=true ↔ rest ≠ []
        cases rest <;> simp
      handedOnce := List.nodup_append.mpr ⟨h.handedOnce,List.nodup_singleton n,fun x hx y hy ↦ by
        rw [List.mem_singleton] at hy
        rw [hy]
        exact fun he ↦ hnew (he ▸ hx)⟩
      completed_lt := h.completed_lt
      handed_completed := fun m hm ↦ by
        rcases List.mem_append.mp hm with hm | hm
        · exact h.handed_completed m hm
        · rw [List.mem_singleton.mp hm]
          exact ((h.pending_iff n).mp hmem).1}

/-! Packets. -/

lemma Kept.control_received (h : Kept r) (hc : c ∈ r.server.children) (a : Arrival) :
    (received c a).socket.control=c.socket.control.receive a.packet.flags :=
  h.objects.table.control_child hc a

/-- A packet takes a child from one phase to the next; the one that ends the handshake is noted. -/
lemma Phase.receive {r' : Served} (h : Phase r c)
    (hcontrol : (received c a).socket.control=c.socket.control.receive a.packet.flags)
    (hrst : a.packet.flags.rst=true → c.socket.state=.established → c.handle ∉ r.server.pending)
    (hcompleted : completes c a.packet=false → c.handle ∈ r'.completed → c.handle ∈ r.completed)
    (hpending : completes c a.packet=false → c.handle ∈ r'.server.pending →
      c.handle ∈ r.server.pending) : Phase r' (received c a) := by
  have hstate := congrArg Control.state hcontrol
  have hreset := congrArg Control.reset hcontrol
  rw [control_state] at hstate
  rw [control_reset] at hreset
  cases h with
  | shaking state reset new =>
    rw [Control.receive_synReceived state] at hstate hreset
    by_cases hend : (!a.packet.flags.rst && a.packet.flags.ack)=true
    · rw [if_pos hend] at hstate hreset
      exact .serving (Or.inl hstate) (hreset.trans reset)
    · rw [if_neg hend] at hstate hreset
      have hno : completes c a.packet=false := by
        unfold completes
        rw [Bool.and_assoc,Bool.eq_false_iff.mpr hend,Bool.and_false]
      exact .shaking (hstate.trans state) (hreset.trans reset) (mt (hcompleted hno) new)
  | serving state reset =>
    rcases state with state | state
    · rw [Control.receive_established state] at hstate hreset
      split_ifs at hstate hreset with hr hc hf
      · rw [control_reset,reset] at hc
        cases hc
      · have hno : completes c a.packet=false := by
          unfold completes
          rw [state]
          rfl
        exact .gone hstate (mt (hpending hno) (hrst hr state))
      · exact .serving (Or.inr hstate) (hreset.trans reset)
      · exact .serving (Or.inl (hstate.trans state)) (hreset.trans reset)
    · rw [Control.receive_closeWait state] at hstate hreset
      exact .serving (Or.inr (hstate.trans state)) (hreset.trans reset)
  | gone state accepted =>
    rw [Control.receive_timeWait state] at hstate
    have hno : completes c a.packet=false := by
      unfold completes
      rw [state]
      rfl
    exact .gone hstate (mt (hpending hno) accepted)

lemma Phase.state_ne (h : Phase r c) : c.socket.state ≠ .closed := by
  cases h with
  | shaking state reset new =>
    rw [state]
    decide
  | serving state reset => rcases state with state | state <;> rw [state] <;> decide
  | gone state accepted =>
    rw [state]
    decide

lemma Kept.childPacket (h : Kept r) (hc : c ∈ r.server.children)
    (hrst : a.packet.flags.rst=true → c.socket.state=.established → c.handle ∉ r.server.pending)
    (hno : completes c a.packet=false) :
    Kept ⟨r.server.childPacket c a,r.completed,r.handedOut⟩ := by
  have hphase : Phase r (received c a) :=
    (h.phase c hc).receive (h.control_received hc a) hrst (fun _ ↦ id) fun _ ↦ id
  rw [childPacket_eq hphase.state_ne,queueCompleted,hno,if_neg Bool.false_ne_true]
  refine h.frame (h.objects.replace (List.mem_append_left _ hc) rfl rfl
    fun _ ↦ h.objects.table.no_fin_received hc) rfl rfl le_rfl ?_ ?_
  · intro d hd
    rcases mem_replace hd with rfl | ⟨hd,-⟩
    · exact hphase.mono id id
    · exact (h.phase d hd).mono id id
  · intro n hn
    obtain ⟨d,hd,rfl⟩ := h.present n hn
    refine ⟨_,List.mem_map_of_mem hd,?_⟩
    split_ifs with he
    · exact he.symm
    · rfl

lemma Kept.completing (h : Kept r) (hc : c ∈ r.server.children)
    (hyes : completes c a.packet=true) :
    Kept ⟨r.server.childPacket c a,r.completed++[c.handle],r.handedOut⟩ := by
  have hparts := hyes
  unfold completes at hparts
  rw [Bool.and_eq_true,Bool.and_eq_true,decide_eq_true_eq] at hparts
  obtain ⟨⟨hstate,hrst⟩,-⟩ := hparts
  have hnew : c.handle ∉ r.completed := by
    cases h.phase c hc with
    | shaking state reset new => exact new
    | serving state reset => rcases state with state | state <;> rw [state] at hstate <;> cases hstate
    | gone state accepted =>
      rw [state] at hstate
      cases hstate
  have hidle : c.handle ∉ r.server.pending := fun hp ↦ hnew ((h.pending_iff _).mp hp).1
  have hphase : ∀ r' : Served, Phase r' (received c a) := fun r' ↦
    (h.phase c hc).receive (h.control_received hc a) (fun _ _ ↦ hidle)
      (fun hno ↦ by rw [hyes] at hno; cases hno) fun hno ↦ by rw [hyes] at hno; cases hno
  have hobjects : Objects ((r.server.queueCompleted c a).replace (received c a)) := by
    rw [queueCompleted,if_pos hyes]
    have ho : Objects (r.server.replace (received c a)) :=
      h.objects.replace (List.mem_append_left _ hc) rfl rfl
        fun _ ↦ h.objects.table.no_fin_received hc
    exact ⟨⟨ho.table.handles,ho.table.keys,ho.table.handle_lt,ho.table.no_fin⟩,ho.apart,ho.removed_lt⟩
  rw [childPacket_eq (hphase r).state_ne]
  rw [queueCompleted,if_pos hyes] at hobjects ⊢
  have hother : ∀ d ∈ r.server.children, d.handle ≠ c.handle →
      ∀ l : List ℕ, d.handle ∈ l++[c.handle] → d.handle ∈ l := by
    intro d _ hne l hm
    rcases List.mem_append.mp hm with hm | hm
    · exact hm
    · exact absurd (List.mem_singleton.mp hm) hne
  exact {
    objects := hobjects
    phase := fun d hd ↦ by
      rcases mem_replace hd with rfl | ⟨hd,hne⟩
      · exact hphase _
      · exact (h.phase d hd).mono (hother d hd hne _) (hother d hd hne _)
    pending_iff := fun n ↦ by
      change n ∈ r.server.pending++[c.handle] ↔ n ∈ r.completed++[c.handle] ∧ n ∉ r.handedOut
      rw [List.mem_append,List.mem_append,h.pending_iff,List.mem_singleton]
      constructor
      · rintro (⟨hcompleted,hout⟩ | rfl)
        · exact ⟨Or.inl hcompleted,hout⟩
        · exact ⟨Or.inr rfl,fun ho ↦ hnew (h.handed_completed _ ho)⟩
      · rintro ⟨hcompleted | rfl,hout⟩
        · exact Or.inl ⟨hcompleted,hout⟩
        · exact Or.inr rfl
    once := List.nodup_append.mpr ⟨h.once,List.nodup_singleton _,fun x hx y hy ↦ by
      rw [List.mem_singleton] at hy
      rw [hy]
      exact fun he ↦ hidle (he ▸ hx)⟩
    present := fun n hn ↦ by
      have hmem : ∃ d ∈ r.server.children, d.handle=n := by
        rcases List.mem_append.mp hn with hn | hn
        · exact h.present n hn
        · exact ⟨c,hc,(List.mem_singleton.mp hn).symm⟩
      obtain ⟨d,hd,rfl⟩ := hmem
      refine ⟨_,List.mem_map_of_mem hd,?_⟩
      split_ifs with he
      · exact he.symm
      · rfl
    readable_iff := ⟨fun _ ↦ List.append_ne_nil_of_right_ne_nil _ (List.cons_ne_nil _ _),fun _ ↦ rfl⟩
    handedOnce := h.handedOnce
    completed_lt := fun n hn ↦ by
      rcases List.mem_append.mp hn with hn | hn
      · exact h.completed_lt n hn
      · rw [List.mem_singleton.mp hn]
        exact h.objects.table.handle_lt c hc
    handed_completed := fun n hn ↦ List.mem_append_left _ (h.handed_completed n hn)}

lemma Kept.newChild (h : Kept r) (hl : r.server.getSourceTCP a.peer=none) :
    Kept ⟨r.server.newChild a,r.completed,r.handedOut⟩ := by
  have hch := (children_newChild hl).1
  have hctl := control_newChild r.server.env r.server.receiveBufSize r.server.sendBufSize a.now
    a.takes a.packet
  have hobjects : Objects (r.server.newChild a) := by
    refine ⟨h.objects.table.newChild hl,?_,?_⟩
    · intro e he d hd
      rw [hch,List.mem_append,List.mem_singleton] at he
      rcases he with he | rfl
      · exact h.objects.apart e he d hd
      · exact (h.objects.removed_lt d hd).ne'
    · exact fun d hd ↦ (h.objects.removed_lt d hd).trans (Nat.lt_succ_self _)
  refine h.frame hobjects rfl rfl (Nat.le_succ _) ?_ ?_
  · intro d hd
    rw [hch,List.mem_append,List.mem_singleton] at hd
    rcases hd with hd | rfl
    · exact (h.phase d hd).mono id id
    · have hnew : r.server.nextHandle ∉ r.completed := fun hm ↦ (h.completed_lt _ hm).ne rfl
      generalize Endpoint.newChild r.server.env r.server.receiveBufSize r.server.sendBufSize a.now
        a.takes a.packet=t at hctl
      exact .shaking (congrArg Control.state hctl) (congrArg Control.reset hctl) hnew
  · intro n hn
    obtain ⟨d,hd,rfl⟩ := h.present n hn
    refine ⟨d,?_,rfl⟩
    rw [hch]
    exact List.mem_append_left _ hd

lemma Kept.packet (h : Kept r) (hok : r.server.Attends (.packet a)) : Kept (r.step (.packet a)) := by
  unfold step Server.step completedBy handedOutBy Server.processPacket
  dsimp only
  rw [List.append_nil]
  cases hl : r.server.getSourceTCP a.peer with
  | some c =>
    have hc := (mem_of_lookup hl).1
    dsimp only
    by_cases hyes : completes c a.packet=true
    · rw [if_pos hyes]
      exact h.completing hc hyes
    · rw [if_neg hyes,List.append_nil]
      exact h.childPacket hc (fun hrst ↦ hok hrst c hl) (Bool.eq_false_iff.mpr hyes)
  | none =>
    dsimp only
    rw [List.append_nil]
    split_ifs
    · exact h
    · exact h.newChild hl
    · exact h

lemma Kept.step (h : Kept r) (e : ServerEvent) (hok : r.server.Attends e) : Kept (r.step e) := by
  have hnil : ∀ s : Server, Kept ⟨s,r.completed,r.handedOut⟩ →
      Kept ⟨s,r.completed++[],r.handedOut++[]⟩ := by
    intro s hs
    rw [List.append_nil,List.append_nil]
    exact hs
  cases e with
  | packet a => exact h.packet hok
  | accept => exact h.accept
  | closeTimer handle now takes =>
    refine hnil _ ?_
    unfold Server.step
    dsimp only
    cases ho : r.server.object handle with
    | none => exact h
    | some c =>
      dsimp only
      split_ifs with htasks
      · exact h.closeTimer (mem_of_object ho).1 (hok c ho htasks) now takes
      · exact h
  | free handle =>
    refine hnil _ ?_
    unfold Server.step
    dsimp only
    cases hf : r.server.removed.find? fun c ↦ c.handle=handle with
    | none => exact h
    | some c => exact h.free (hok c hf)

lemma Kept.live (h : Kept r) {n : ℕ} (hn : n ∈ r.server.handedOutBy .accept) :
    ∃ c ∈ r.server.children, c.handle=n ∧ c.socket.error.connectionReset=false ∧
      c.socket.state ≠ .closed := by
  unfold handedOutBy at hn
  dsimp only at hn
  cases hp : r.server.pending with
  | nil =>
    unfold acceptServerPeer at hn
    rw [hp] at hn
    exact absurd hn List.not_mem_nil
  | cons m rest =>
    obtain ⟨c,hc,hm,haccept⟩ := acceptServerPeer_eq h hp
    rw [haccept] at hn
    have hnm : n=m := List.mem_singleton.mp hn
    have hmem : c.handle ∈ r.server.pending := by
      rw [hm,hp]
      exact List.mem_cons_self
    exact ⟨c,hc,hm.trans hnm.symm,(h.serving hc hmem).2,(h.phase c hc).state_ne⟩

lemma Kept.queued (h : Kept r) : Queued r :=
  ⟨h.pending_iff,h.once,h.present,h.readable_iff,h.handedOnce,fun _ ↦ h.live⟩

end Served

open Served

/-- The states of a listening socket that runs reach in which every event meets its condition. -/
inductive Serves : Served → Prop
  | listen (env : Env) (receiveBufSize sendBufSize : ℕ) :
      Serves (.listen env receiveBufSize sendBufSize)
  | step {r : Served} (h : Serves r) (e : ServerEvent) (ok : r.server.Attends e) : Serves (r.step e)

lemma Serves.kept {r : Served} (h : Serves r) : Kept r := by
  induction h with
  | listen env r w => exact kept_listen env r w
  | step h e ok ih => exact ih.step e ok

/-- In every run in which no reset reaches a waiting child and no waiting child loses its place in the
table, the accept queue is right. -/
theorem queued_of_serves {r : Served} (h : Serves r) : Queued r := h.kept.queued

/-- The packet with the given flags from the peer of the first SYN. -/
def later (id : ℕ) (flags : PacketFlags) : Arrival :=
  ⟨firstSyn.peer,⟨id,flags,0,1,10,[],3000000,0,[]⟩,4000000,[]⟩

/-- A SYN and the acknowledgment that ends its handshake. -/
def handshake : List ServerEvent := [.packet firstSyn,.packet (later 1 .ack')]

theorem queued_handshake :
    (handshake.foldl Served.step (.listen plainEnv 174760 131072)).server.pending=[0] ∧
      Queued (handshake.foldl Served.step (.listen plainEnv 174760 131072)) := by
  refine ⟨by decide,?_⟩
  have h₁ := (Serves.listen plainEnv 174760 131072).step (.packet firstSyn)
    fun hrst ↦ absurd hrst (by decide)
  have h₂ := h₁.step (.packet (later 1 .ack')) fun hrst ↦ absurd hrst (by decide)
  exact queued_of_serves h₂

/-- The waiting child is reset, and its close timer expires. -/
def resetWaiting : List ServerEvent :=
  handshake++[.packet (later 2 .rst'),.closeTimer 0 1004000000 []]

/-- The child leaves the table and keeps waiting. -/
theorem reset_child_keeps_waiting :
    ¬Queued (resetWaiting.foldl Served.step (.listen plainEnv 174760 131072)) := by
  intro h
  obtain ⟨c,hc,-⟩ := h.present 0 (by decide)
  have hnone : (resetWaiting.foldl Served.step
      (.listen plainEnv 174760 131072)).server.children.length=0 := by decide
  rw [List.length_eq_zero_iff.mp hnone] at hc
  exact absurd hc List.not_mem_nil

end Tcp
end Phantom
