import Phantom.Tcp.Server

/-! Runs of a listening socket: which child a packet reaches, and what the queue of pending children
holds. -/
namespace Phantom
namespace Tcp
namespace Server

open Endpoint

variable {s : Server} {a : Arrival} {c : Child}

/-- The table has one child for each key and for each handle. -/
structure Table (s : Server) : Prop where
  handles : (s.children.map Child.handle).Nodup
  keys : (s.children.map Child.key).Nodup
  handle_lt : ∀ c ∈ s.children, c.handle<s.nextHandle
  no_fin : ∀ c ∈ s.children, c.socket.flags.shouldSendWrFin=false

lemma mem_of_lookup {k : ℕ} (h : s.lookup k=some c) : c ∈ s.children ∧ c.key=k :=
  ⟨List.mem_of_find?_eq_some h,by simpa using List.find?_some h⟩

lemma lookup_none {k : ℕ} (h : s.lookup k=none) : ∀ c ∈ s.children, c.key ≠ k := by
  intro c hc hk
  have := List.find?_eq_none.mp h c hc
  simp [hk] at this

lemma Table.eq_of_handle (h : Table s) {d : Child} (hc : c ∈ s.children) (hd : d ∈ s.children)
    (he : c.handle=d.handle) : c=d :=
  List.inj_on_of_nodup_map h.handles hc hd he

lemma Table.eq_of_key (h : Table s) {d : Child} (hc : c ∈ s.children) (hd : d ∈ s.children)
    (he : c.key=d.key) : c=d :=
  List.inj_on_of_nodup_map h.keys hc hd he

lemma Table.lookup_of_mem (h : Table s) (hc : c ∈ s.children) : s.lookup c.key=some c := by
  cases hl : s.lookup c.key with
  | none => exact absurd rfl (lookup_none hl c hc)
  | some d =>
    obtain ⟨hd,hk⟩ := mem_of_lookup hl
    rw [h.eq_of_key hd hc hk]

lemma Table.map_replace (h : Table s) {β : Type} (f : Child → β) {c' : Child} (hc : c ∈ s.children)
    (hh : c'.handle=c.handle) (hf : f c'=f c) :
    (s.replace c').children.map f=s.children.map f := by
  unfold replace
  rw [List.map_map]
  apply List.map_congr_left
  intro d hd
  simp only [Function.comp]
  split_ifs with he
  · rw [hf,h.eq_of_handle hc hd (by rw [← hh,he])]
  · rfl

lemma mem_replace {c' d : Child} (hd : d ∈ (s.replace c').children) :
    d=c' ∨ d ∈ s.children ∧ d.handle ≠ c'.handle := by
  obtain ⟨e,he,rfl⟩ := List.mem_map.mp hd
  split_ifs with hh
  · exact Or.inl rfl
  · exact Or.inr ⟨he,hh⟩

lemma Table.replace (h : Table s) {c' : Child} (hc : c ∈ s.children) (hh : c'.handle=c.handle)
    (hk : c'.key=c.key) (hf : c'.socket.flags.shouldSendWrFin=false) : Table (s.replace c') := by
  refine ⟨?_,?_,?_,?_⟩
  · rw [h.map_replace Child.handle hc hh hh]
    exact h.handles
  · rw [h.map_replace Child.key hc hh hk]
    exact h.keys
  · intro d hd
    rcases mem_replace hd with rfl | ⟨hd,-⟩
    · rw [hh]
      exact h.handle_lt c hc
    · exact h.handle_lt d hd
  · intro d hd
    rcases mem_replace hd with rfl | ⟨hd,-⟩
    · exact hf
    · exact h.no_fin d hd

lemma Table.unlink (h : Table s) (k : ℕ) : Table (s.unlink k) := by
  have hsub : (s.unlink k).children.Sublist s.children := List.filter_sublist
  refine ⟨h.handles.sublist (hsub.map _),h.keys.sublist (hsub.map _),?_,?_⟩
  · exact fun d hd ↦ h.handle_lt d (hsub.subset hd)
  · exact fun d hd ↦ h.no_fin d (hsub.subset hd)

lemma control_newChild (env : Env) (r w now : ℕ) (takes : List ℕ) (p : Packet) :
    (Endpoint.newChild env r w now takes p).control=⟨.synReceived,.none,false,0,false⟩ :=
  control_processSwitched _ rfl p

lemma state_newChild (env : Env) (r w now : ℕ) (takes : List ℕ) (p : Packet) :
    (Endpoint.newChild env r w now takes p).state=.synReceived := by
  rw [← control_state,control_newChild]

lemma Table.control_child (h : Table s) (hc : c ∈ s.children) (a : Arrival) :
    ((c.socket.atTime a.now a.takes).processPacket a.packet).control=
      c.socket.control.receive a.packet.flags :=
  control_processPacket (c.socket.atTime a.now a.takes) (h.no_fin c hc) a.packet

lemma children_newChild (hl : s.getSourceTCP a.peer=none) :
    (s.newChild a).children=s.children++[⟨s.nextHandle,a.peer,.incomplete,
      Endpoint.newChild s.env s.receiveBufSize s.sendBufSize a.now a.takes a.packet⟩] ∧
    (s.newChild a).aborted=s.aborted := by
  have hkey : ∀ d ∈ s.children, d.key ≠ ipPortHash a.peer := lookup_none hl
  constructor
  · unfold Server.newChild
    simp only [Child.key]
    rw [List.filter_eq_self.mpr]
    exact fun d hd ↦ decide_eq_true (hkey d hd)
  · unfold Server.newChild
    simp only [Child.key]
    rw [show s.lookup (ipPortHash a.peer)=none from hl]
    simp

lemma Table.newChild (h : Table s) (hl : s.getSourceTCP a.peer=none) : Table (s.newChild a) := by
  have hch := (children_newChild hl).1
  have hctl := control_newChild s.env s.receiveBufSize s.sendBufSize a.now a.takes a.packet
  refine ⟨?_,?_,?_,?_⟩
  · rw [hch,List.map_append,List.map_cons,List.map_nil]
    refine List.nodup_append.mpr ⟨h.handles,List.nodup_singleton _,?_⟩
    intro x hx y hy
    obtain ⟨d,hd,rfl⟩ := List.mem_map.mp hx
    rw [List.mem_singleton] at hy
    rw [hy]
    exact (h.handle_lt d hd).ne
  · rw [hch,List.map_append,List.map_cons,List.map_nil]
    refine List.nodup_append.mpr ⟨h.keys,List.nodup_singleton _,?_⟩
    intro x hx y hy
    obtain ⟨d,hd,rfl⟩ := List.mem_map.mp hx
    rw [List.mem_singleton] at hy
    rw [hy]
    exact lookup_none hl d hd
  · intro d hd
    rw [hch,List.mem_append,List.mem_singleton] at hd
    rcases hd with hd | rfl
    · exact (h.handle_lt d hd).trans (Nat.lt_succ_self _)
    · exact Nat.lt_succ_self _
  · intro d hd
    rw [hch,List.mem_append,List.mem_singleton] at hd
    rcases hd with hd | rfl
    · exact h.no_fin d hd
    · dsimp only
      rw [← control_flags,hctl]
      rfl

/-- A socket that a server has made and that nobody has closed: its handshake is under way or
over. -/
def Opening (c : Child) : Prop := c.socket.state=.synReceived ∨ c.socket.state=.established

lemma opening_receive (h : Table s) (hc : c ∈ s.children) (ho : Opening c)
    (hrst : a.packet.flags.rst=false) (hfin : a.packet.flags.fin=false) : Opening (received c a) := by
  have hctl := congrArg Control.state (h.control_child hc a)
  have hstate : (received c a).socket.state=(c.socket.control.receive a.packet.flags).state := hctl
  unfold Opening
  rw [hstate]
  rcases ho with hs | hs
  · rw [Control.receive_synReceived hs]
    split_ifs
    · exact Or.inr rfl
    · exact Or.inl hs
  · rw [Control.receive_established hs,hrst,hfin]
    exact Or.inr hs

/-- A listening socket that has received SYN and data packets only. -/
structure Routed (s : Server) : Prop where
  table : Table s
  opening : ∀ c ∈ s.children, Opening c
  not_aborted : s.aborted=false

lemma Routed.listen (env : Env) (r w : ℕ) : Routed (listen env r w) :=
  ⟨⟨List.nodup_nil,List.nodup_nil,fun _ h ↦ absurd h List.not_mem_nil,
    fun _ h ↦ absurd h List.not_mem_nil⟩,fun _ h ↦ absurd h List.not_mem_nil,rfl⟩

/-- The peers of the children. -/
def peers (s : Server) : List Peer := s.children.map Child.peer

lemma childPacket_eq (hne : (received c a).socket.state ≠ .closed) :
    s.childPacket c a=(s.queueCompleted c a).replace (received c a) := by
  unfold childPacket unlinkClosed
  rw [if_neg hne]

lemma children_queueCompleted : (s.queueCompleted c a).children=s.children ∧
    (s.queueCompleted c a).nextHandle=s.nextHandle ∧ (s.queueCompleted c a).removed=s.removed ∧
    (s.queueCompleted c a).aborted=s.aborted := by
  unfold queueCompleted
  split_ifs <;> exact ⟨rfl,rfl,rfl,rfl⟩

lemma Table.queueCompleted (h : Table s) : Table (s.queueCompleted c a) := by
  obtain ⟨hch,hnext,-,-⟩ := children_queueCompleted (s := s) (c := c) (a := a)
  refine ⟨?_,?_,?_,?_⟩
  · rw [hch]
    exact h.handles
  · rw [hch]
    exact h.keys
  · rw [hch,hnext]
    exact h.handle_lt
  · rw [hch]
    exact h.no_fin

lemma Table.no_fin_received (h : Table s) (hc : c ∈ s.children) :
    (received c a).socket.flags.shouldSendWrFin=false := by
  have hctl := congrArg (fun c : Control ↦ c.flags.shouldSendWrFin) (h.control_child hc a)
  rw [Control.receive_shouldSendWrFin] at hctl
  exact hctl.trans (h.no_fin c hc)

lemma Routed.childPacket (h : Routed s) (hc : c ∈ s.children) (hrst : a.packet.flags.rst=false)
    (hfin : a.packet.flags.fin=false) :
    Routed (s.childPacket c a) ∧ (s.childPacket c a).peers=s.peers := by
  have hop := opening_receive h.table hc (h.opening c hc) hrst hfin
  have hne : (received c a).socket.state ≠ .closed := by
    rcases hop with hs | hs <;> rw [hs] <;> simp
  have hu := h.table.queueCompleted (c := c) (a := a)
  obtain ⟨hch,-,-,hab⟩ := children_queueCompleted (s := s) (c := c) (a := a)
  have hcu : c ∈ (s.queueCompleted c a).children := hch ▸ hc
  rw [childPacket_eq hne]
  refine ⟨⟨hu.replace hcu rfl rfl (h.table.no_fin_received hc),?_,hab.trans h.not_aborted⟩,?_⟩
  · intro d hd
    rcases mem_replace hd with rfl | ⟨hd,-⟩
    · exact hop
    · exact h.opening d (hch ▸ hd)
  · have hhandle : (received c a).handle=c.handle := rfl
    have hpeer : (received c a).peer=c.peer := rfl
    exact (hu.map_replace Child.peer hcu hhandle hpeer).trans (congrArg _ hch)

lemma Routed.processPacket (h : Routed s) (hrst : a.packet.flags.rst=false)
    (hfin : a.packet.flags.fin=false) :
    Routed (s.processPacket a) ∧ (s.processPacket a).peers=
      if s.getSourceTCP a.peer=none ∧ a.packet.flags.syn=true then s.peers++[a.peer] else s.peers := by
  unfold Server.processPacket
  cases hl : s.getSourceTCP a.peer with
  | some c =>
    have hnot : ¬(some c=none ∧ a.packet.flags.syn=true) := by simp
    rw [if_neg hnot]
    exact h.childPacket (mem_of_lookup hl).1 hrst hfin
  | none =>
    dsimp only
    rw [hrst]
    simp only [Bool.false_eq_true,if_false,true_and]
    split_ifs with hsyn
    · obtain ⟨hch,hab⟩ := children_newChild (a := a) hl
      refine ⟨⟨h.table.newChild hl,?_,hab.trans h.not_aborted⟩,?_⟩
      · intro d hd
        rw [hch,List.mem_append,List.mem_singleton] at hd
        rcases hd with hd | rfl
        · exact h.opening d hd
        · exact Or.inl (state_newChild _ _ _ _ _ _)
      · unfold peers
        rw [hch,List.map_append]
        rfl
    · exact ⟨h,rfl⟩

/-- The packet reaches the child of its own peer if it reaches a child at all, a SYN of a peer
without a child makes one, and no assertion fails. -/
structure Demultiplexes (s : Server) (a : Arrival) : Prop where
  own : ∀ c, s.getSourceTCP a.peer=some c → c.peer=a.peer
  create : a.packet.flags.syn=true → a.peer ∉ s.peers →
    (s.processPacket a).peers=s.peers++[a.peer]
  not_aborted : (s.processPacket a).aborted=false

/-- Every packet of a sequence is demultiplexed. -/
def DemultiplexesAll : Server → List Arrival → Prop
  | _,[] => True
  | s,a::as => Demultiplexes s a ∧ DemultiplexesAll (s.processPacket a) as

/-- No SYN is followed by a packet of another peer with the same hash. -/
def NoCollision (as : List Arrival) : Prop :=
  as.Pairwise fun a b ↦ a.packet.flags.syn=true → ipPortHash a.peer=ipPortHash b.peer →
    a.peer=b.peer

/-- No packet has the hash of a child of another peer. -/
def Separated (s : Server) (as : List Arrival) : Prop :=
  ∀ a ∈ as, ∀ p ∈ s.peers, ipPortHash p=ipPortHash a.peer → p=a.peer

lemma own_iff (h : Table s) : (∀ c, s.getSourceTCP a.peer=some c → c.peer=a.peer) ↔
    ∀ p ∈ s.peers, ipPortHash p=ipPortHash a.peer → p=a.peer := by
  constructor
  · intro hown p hp hk
    obtain ⟨c,hc,rfl⟩ := List.mem_map.mp hp
    refine hown c ?_
    rw [getSourceTCP,← hk]
    exact h.lookup_of_mem hc
  · intro hsep c hc
    obtain ⟨hmem,hk⟩ := mem_of_lookup hc
    exact hsep c.peer (List.mem_map_of_mem hmem) hk

lemma Routed.demultiplexes_iff (h : Routed s) (hrst : a.packet.flags.rst=false)
    (hfin : a.packet.flags.fin=false) :
    Demultiplexes s a ↔ ∀ p ∈ s.peers, ipPortHash p=ipPortHash a.peer → p=a.peer := by
  rw [← own_iff h.table]
  constructor
  · exact fun hd ↦ hd.own
  · intro hown
    obtain ⟨hr,hp⟩ := h.processPacket hrst hfin
    refine ⟨hown,fun hsyn hnew ↦ ?_,hr.not_aborted⟩
    rw [hp,if_pos]
    refine ⟨?_,hsyn⟩
    cases hl : s.getSourceTCP a.peer with
    | none => rfl
    | some c =>
      exact absurd (List.mem_map_of_mem (mem_of_lookup hl).1) (hown c hl ▸ hnew)

lemma Routed.mem_peers (h : Routed s) (hrst : a.packet.flags.rst=false)
    (hfin : a.packet.flags.fin=false)
    (hsep : ∀ p ∈ s.peers, ipPortHash p=ipPortHash a.peer → p=a.peer) (p : Peer) :
    p ∈ (s.processPacket a).peers ↔ p ∈ s.peers ∨ p=a.peer ∧ a.packet.flags.syn=true := by
  rw [(h.processPacket hrst hfin).2]
  split_ifs with hnew
  · rw [List.mem_append,List.mem_singleton]
    simp [hnew.2]
  · constructor
    · exact Or.inl
    · rintro (hp | ⟨rfl,hsyn⟩)
      · exact hp
      · cases hl : s.getSourceTCP a.peer with
        | none => exact absurd ⟨hl,hsyn⟩ hnew
        | some c =>
          obtain ⟨hmem,hk⟩ := mem_of_lookup hl
          have hp := List.mem_map_of_mem (f := Child.peer) hmem
          exact hsep c.peer hp hk ▸ hp

lemma demultiplexesAll_iff (h : Routed s) {as : List Arrival}
    (hflags : ∀ a ∈ as, a.packet.flags.rst=false ∧ a.packet.flags.fin=false) :
    DemultiplexesAll s as ↔ Separated s as ∧ NoCollision as := by
  induction as generalizing s with
  | nil => exact ⟨fun _ ↦ ⟨fun _ h ↦ absurd h List.not_mem_nil,List.Pairwise.nil⟩,fun _ ↦ trivial⟩
  | cons a as ih =>
    obtain ⟨hrst,hfin⟩ := hflags a List.mem_cons_self
    have hrest := fun b hb ↦ hflags b (List.mem_cons_of_mem a hb)
    have hr := (h.processPacket hrst hfin).1
    rw [DemultiplexesAll,h.demultiplexes_iff hrst hfin,ih hr hrest,NoCollision,NoCollision,
      List.pairwise_cons]
    constructor
    · rintro ⟨hsep,hall,hpair⟩
      have hpeers := h.mem_peers hrst hfin hsep
      refine ⟨fun b hb ↦ ?_,fun b hb hsyn hk ↦ ?_,hpair⟩
      · rcases List.mem_cons.mp hb with rfl | hb
        · exact hsep
        · exact fun p hp ↦ hall b hb p ((hpeers p).mpr (Or.inl hp))
      · exact hall b hb a.peer ((hpeers a.peer).mpr (Or.inr ⟨rfl,hsyn⟩)) hk
    · rintro ⟨hsep,hhead,hpair⟩
      have hsep' := hsep a List.mem_cons_self
      have hpeers := h.mem_peers hrst hfin hsep'
      refine ⟨hsep',fun b hb p hp ↦ ?_,hpair⟩
      rcases (hpeers p).mp hp with hp | ⟨rfl,hsyn⟩
      · exact hsep b (List.mem_cons_of_mem a hb) p hp
      · exact hhead b hb hsyn

/-- A listening socket demultiplexes a sequence of SYN and data packets exactly when no SYN in it is
followed by a packet of another peer with the same hash. -/
theorem demultiplexesAll_iff_noCollision (env : Env) (receiveBufSize sendBufSize : ℕ)
    (as : List Arrival)
    (hflags : ∀ a ∈ as, a.packet.flags.rst=false ∧ a.packet.flags.fin=false) :
    DemultiplexesAll (listen env receiveBufSize sendBufSize) as ↔ NoCollision as := by
  rw [demultiplexesAll_iff (Routed.listen env receiveBufSize sendBufSize) hflags]
  refine and_iff_right ?_
  intro a _ p hp
  exact absurd hp List.not_mem_nil

/-- A SYN from the given peer. -/
def synFrom (ip : UInt32) (port : UInt16) : Arrival :=
  ⟨⟨ip,port⟩,⟨0,.syn',0,0,10,[],1000000,0,[]⟩,2000000,[]⟩

/-- The SYN of 11.0.2.187, port 10000, in the order of the network. -/
def firstSyn : Arrival := synFrom 3137470475 4135

/-- The SYN of 11.0.3.153, port 65000, which has the same hash. -/
def collidingSyn : Arrival := synFrom 2567110667 59645

theorem demultiplexesAll_one_peer :
    DemultiplexesAll (listen plainEnv 174760 131072) [firstSyn,firstSyn] :=
  (demultiplexesAll_iff_noCollision plainEnv 174760 131072 [firstSyn,firstSyn] (by decide)).mpr
    (by simp [NoCollision])

lemma getSourceTCP_collidingSyn : ((((listen plainEnv 174760 131072).processPacket
    firstSyn).getSourceTCP collidingSyn.peer).map Child.peer)=some firstSyn.peer := by
  decide

/-- The second peer's SYN reaches the child of the first. -/
theorem colliding_syn_reaches_other_child :
    ¬DemultiplexesAll (listen plainEnv 174760 131072) [firstSyn,collidingSyn] := by
  rintro ⟨-,h,-⟩
  obtain ⟨c,hc,hp⟩ := Option.map_eq_some_iff.mp getSourceTCP_collidingSyn
  have hown := h.own c hc
  rw [hp] at hown
  exact absurd hown (by decide)

end Server
end Tcp
end Phantom
