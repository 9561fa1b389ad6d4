import Phantom.Host.NetworkInterface

/-! What a socket call does to the association tables of its host. -/
namespace Phantom
namespace Net

/-- The interfaces that a bind address stands for. -/
def Covers (h : Host) (addr i : ℕ) : Prop := i ∈ h.interfaces ∧ (addr=inaddrAny ∨ addr=i)

instance (h : Host) (addr i : ℕ) : Decidable (Covers h addr i) :=
  inferInstanceAs (Decidable (_ ∧ _))

/-- The tables with one entry rewritten on every interface of a bind address. -/
def place (h : Host) (addr : ℕ) (k : AssociationKey) (o : Option ℕ) : Host :=
  {h with boundSockets := fun i k' ↦ if Covers h addr i ∧ k'=k then o else h.boundSockets i k'}

lemma mem_interfaces (h : Host) (i : ℕ) :
    i ∈ h.interfaces ↔ i=h.defaultIP ∨ i=inaddrLoopback := by
  unfold Host.interfaces
  split_ifs with hd <;> simp [hd]

lemma ne_any_of_mem {h : Host} {i : ℕ} (hi : i ∈ h.interfaces) : i ≠ inaddrAny := by
  rcases (mem_interfaces h i).mp hi with rfl | rfl
  · exact h.default_ne_any
  · decide

lemma doesInterfaceExist_iff (h : Host) (addr : ℕ) :
    doesInterfaceExist h addr=true ↔ addr=inaddrAny ∨ addr ∈ h.interfaces := by
  simp [doesInterfaceExist]

lemma Covers.self {h : Host} {addr : ℕ} (ha : addr ∈ h.interfaces) : Covers h addr addr :=
  ⟨ha,Or.inr rfl⟩

lemma exists_covers {h : Host} {addr : ℕ} (ha : doesInterfaceExist h addr=true) :
    ∃ i, Covers h addr i := by
  rcases (doesInterfaceExist_iff h addr).mp ha with rfl | hm
  · exact ⟨inaddrLoopback,(mem_interfaces h _).mpr (Or.inr rfl),Or.inl rfl⟩
  · exact ⟨addr,.self hm⟩

lemma isInterfaceAvailable_iff {h : Host} {addr : ℕ} (ha : doesInterfaceExist h addr=true)
    (type : ProtocolType) (port peerIP peerPort : ℕ) :
    isInterfaceAvailable h type addr port peerIP peerPort=true ↔
      ∀ i, Covers h addr i → h.boundSockets i ⟨type,port,0,0⟩=none ∧
        h.boundSockets i ⟨type,port,peerIP,peerPort⟩=none := by
  unfold isInterfaceAvailable
  split_ifs with hany
  · subst hany
    simp [Covers,isAssociated]
  · have hm : addr ∈ h.interfaces := by
      rcases (doesInterfaceExist_iff h addr).mp ha with he | hm
      · exact absurd he hany
      · exact hm
    constructor
    · rintro hav i ⟨-,he⟩
      obtain rfl : addr=i := he.resolve_left hany
      simpa [isAssociated] using hav
    · intro hall
      simpa [isAssociated] using hall addr (.self hm)

lemma setEntry_two (h : Host) (k : AssociationKey) (o : Option ℕ) :
    h.interfaces.foldl (fun h i ↦ h.setEntry i k o) h=place h inaddrAny k o := by
  have hm := mem_interfaces h
  unfold Host.interfaces at hm ⊢
  split_ifs with hd
  · rw [if_pos hd] at hm
    simp only [List.foldl_cons,List.foldl_nil,Host.setEntry,place,Host.mk.injEq,true_and,and_true]
    funext i k'
    by_cases hi : i=inaddrLoopback <;> by_cases hk : k'=k <;>
      simp [Covers,mem_interfaces,hi,hk,hd]
  · simp only [List.foldl_cons,List.foldl_nil,Host.setEntry,place,Host.mk.injEq,true_and,and_true]
    funext i k'
    by_cases hi : i=inaddrLoopback <;> by_cases hj : i=h.defaultIP <;> by_cases hk : k'=k <;>
      simp [Covers,mem_interfaces,Function.update_apply,hi,hj,hk] <;> grind

lemma setEntry_one {h : Host} {addr : ℕ} (ha : addr ∈ h.interfaces) (k : AssociationKey)
    (o : Option ℕ) : h.setEntry addr k o=place h addr k o := by
  simp only [Host.setEntry,place,Host.mk.injEq,true_and,and_true]
  funext i k'
  have hne := ne_any_of_mem ha
  by_cases hi : i=addr <;> by_cases hk : k'=k <;>
    simp [Covers,hi,hk,ha,hne]
  all_goals grind

lemma associate_of_free {h : Host} {i s : ℕ} {sock : Socket}
    (hf : h.boundSockets i (socketToAssociationKey sock)=none) :
    associate h i s sock=.ok (h.setEntry i (socketToAssociationKey sock) (some s)) := by
  simp [associate,hf]

lemma associateInterface_eq {h : Host} {addr : ℕ} (ha : doesInterfaceExist h addr=true) (s : ℕ)
    (sock : Socket)
    (hf : ∀ i, Covers h addr i → h.boundSockets i (socketToAssociationKey sock)=none) :
    associateInterface h s sock addr=.ok (place h addr (socketToAssociationKey sock) (some s)) := by
  unfold associateInterface
  split_ifs with hany
  · subst hany
    rw [← setEntry_two]
    have hloop := hf inaddrLoopback ⟨(mem_interfaces h _).mpr (Or.inr rfl),Or.inl rfl⟩
    have hdef := hf h.defaultIP ⟨(mem_interfaces h _).mpr (Or.inl rfl),Or.inl rfl⟩
    unfold Host.interfaces
    split_ifs with hd
    · simp [associate_of_free hloop]
    · have hnext : (h.setEntry h.defaultIP (socketToAssociationKey sock) (some s)).boundSockets
          inaddrLoopback (socketToAssociationKey sock)=none := by
        simp [Host.setEntry,Ne.symm hd,hloop]
      simp [associate_of_free hdef,associate_of_free hnext,Bind.bind,Except.bind,pure,Except.pure]
  · have hm := ((doesInterfaceExist_iff h addr).mp ha).resolve_left hany
    rw [associate_of_free (hf addr (.self hm)),setEntry_one hm]

lemma disassociateInterface_eq {h : Host} {sock : Socket} (hb : sock.isBound=true)
    (ha : doesInterfaceExist h sock.getSocketAddress=true) :
    disassociateInterface h sock=
      place h sock.getSocketAddress (socketToAssociationKey sock) none := by
  unfold disassociateInterface
  rw [if_pos hb]
  split_ifs with hany
  · rw [hany]
    exact setEntry_two h _ none
  · exact setEntry_one (((doesInterfaceExist_iff h _).mp ha).resolve_left hany) _ none

lemma getSocketAddress_exists {h : Host} {sock : Socket}
    (hi : doesInterfaceExist h sock.boundAddress=true) :
    doesInterfaceExist h sock.getSocketAddress=true := by
  unfold Socket.getSocketAddress
  split_ifs
  · rw [doesInterfaceExist_iff,mem_interfaces]
    exact Or.inr (Or.inr rfl)
  · exact hi

lemma linearSearch_available {available : ℕ → Bool} {start fuel next p : ℕ}
    (h : linearSearch available start fuel next=some p) (hp : p ≠ 0) : available p=true := by
  induction fuel generalizing next with
  | zero => simp [linearSearch] at h
  | succ fuel ih =>
    rw [linearSearch] at h
    split_ifs at h with h1 h2
    · exact absurd (Option.some.inj h).symm hp
    · rwa [← Option.some.inj h]
    · exact ih h
    · exact ih h

lemma getRandomFreePort_available {h : Host} {type : ProtocolType} {ip peerIP peerPort p : ℕ}
    {picks : ℕ → Fin (65536-minRandomPort)}
    (hp : getRandomFreePort h type ip peerIP peerPort picks=some p) (hne : p ≠ 0) :
    isInterfaceAvailable h type ip p peerIP peerPort=true := by
  unfold getRandomFreePort at hp
  simp only at hp
  split at hp
  · rename_i n hn
    have hav := List.find?_some hn
    rwa [Option.some.inj hp] at hav
  · exact @linearSearch_available (fun p ↦ isInterfaceAvailable h type ip p peerIP peerPort) _ _ _ _
      hp hne

/-- An association of the port `q` goes through. -/
structure Takes (h : Host) (type : ProtocolType) (addr port peerAddr peerPort : ℕ)
    (picks : ℕ → Fin (65536-minRandomPort)) (q : ℕ) : Prop where
  interface : doesInterfaceExist h addr=true
  port : bindPort h type addr port peerAddr peerPort picks=some q
  ne : q ≠ 0
  available : isInterfaceAvailable h type addr q peerAddr peerPort=true

def named (sock : Socket) (addr q peerAddr peerPort : ℕ) : Socket :=
  (sock.setPeerName peerAddr peerPort).setSocketName addr q

/-- The host after a socket has taken a port. -/
def taken (h : Host) (s : ℕ) (sock : Socket) (addr q peerAddr peerPort : ℕ) : Host :=
  place (h.setSocket s (some (named sock addr q peerAddr peerPort))) addr
    (socketToAssociationKey (named sock addr q peerAddr peerPort)) (some s)

/-- The key of a socket is the one that was checked, or the general one where the peer has a zero
in its name. -/
lemma key_named (sock : Socket) (addr q peerAddr peerPort : ℕ) :
    socketToAssociationKey (named sock addr q peerAddr peerPort)=
      if peerAddr=0 ∨ peerPort=0 then ⟨sock.protocol,q,0,0⟩
      else ⟨sock.protocol,q,peerAddr,peerPort⟩ := by
  have hn : (named sock addr q peerAddr peerPort).getPeerName=
      if peerAddr=0 ∨ peerPort=0 then (0,0) else (peerAddr,peerPort) := rfl
  unfold socketToAssociationKey
  rw [hn]
  split_ifs <;> rfl

lemma nameAndAssociate_eq {h : Host} {sock : Socket} {addr q peerAddr peerPort : ℕ}
    (ha : doesInterfaceExist h addr=true)
    (hq : isInterfaceAvailable h sock.protocol addr q peerAddr peerPort=true) (s : ℕ) :
    nameAndAssociate h s sock addr q peerAddr peerPort=
      .ok (taken h s sock addr q peerAddr peerPort) := by
  have hfree := (isInterfaceAvailable_iff ha _ _ _ _).mp hq
  refine associateInterface_eq
    (show doesInterfaceExist (h.setSocket s (some (named sock addr q peerAddr peerPort))) addr=true
      from ha) s _ fun i hi ↦ ?_
  change h.boundSockets i (socketToAssociationKey (named sock addr q peerAddr peerPort))=none
  rw [key_named]
  split_ifs
  · exact (hfree i hi).1
  · exact (hfree i hi).2

/-- A bind either takes a port or stops with an error code or without an end. -/
lemma bindHelper_cases (h : Host) (s : ℕ) (sock : Socket) (addr port peerAddr peerPort : ℕ)
    (picks : ℕ → Fin (65536-minRandomPort)) :
    (∃ q, Takes h sock.protocol addr port peerAddr peerPort picks q ∧
      bindHelper h s sock addr port peerAddr peerPort picks=
        .ok (taken h s sock addr q peerAddr peerPort)) ∨
    ((∀ q, ¬Takes h sock.protocol addr port peerAddr peerPort picks q) ∧
      ∃ e, e ≠ .abort ∧ bindHelper h s sock addr port peerAddr peerPort picks=.error e) := by
  unfold bindHelper
  cases hi : doesInterfaceExist h addr with
  | false => exact Or.inr ⟨fun q t ↦ by simpa [hi] using t.interface,_,by simp,rfl⟩
  | true =>
    simp only [Bool.not_true,Bool.false_eq_true,if_false]
    cases hp : bindPort h sock.protocol addr port peerAddr peerPort picks with
    | none => exact Or.inr ⟨fun q t ↦ by simpa [hp] using t.port,_,by simp,rfl⟩
    | some q =>
      simp only
      split_ifs with hq hav
      · exact Or.inr ⟨fun r t ↦ t.ne (by have := t.port; rw [hp] at this; cases this; exact hq),
          _,by simp,rfl⟩
      · refine Or.inr ⟨fun r t ↦ ?_,_,by simp,rfl⟩
        have hr := t.port
        rw [hp] at hr
        cases hr
        simp [t.available] at hav
      · have hav' : isInterfaceAvailable h sock.protocol addr q peerAddr peerPort=true := by
          simpa using hav
        exact Or.inl ⟨q,⟨hi,hp,hq,hav'⟩,nameAndAssociate_eq hi hav' s⟩

/-- No peer-specific association of the port is in a table that the bind address covers. -/
def NoPeer (h : Host) (type : ProtocolType) (addr q : ℕ) : Prop :=
  ∀ i, Covers h addr i → ∀ k : AssociationKey, k.protocol=type → k.port=q → ¬k.General →
    h.boundSockets i k=none

/-- The call does not take, for every peer, a port that has a peer-specific association, and does
not give another peer to a socket that is associated for one peer only. -/
def Clear (h : Host) : Call → Prop
  | .socket _ => True
  | .close _ => True
  | .bind s addr port picks => ∀ sock, h.sockets s=some sock → sock.isBound=false →
      ∀ q, Takes h sock.protocol addr port 0 0 picks q → NoPeer h sock.protocol addr q
  | .listen s picks => ∀ sock, h.sockets s=some sock → sock.isBound=false →
      sock.protocol=.tcp → sock.unused=true →
      ∀ q, Takes h sock.protocol inaddrAny 0 0 0 picks q → NoPeer h sock.protocol inaddrAny q
  | .sendto s ip port picks => ∀ sock, h.sockets s=some sock → sock.isBound=false →
      sock.protocol=.udp → (destination sock ip port).1 ≠ 0 → (destination sock ip port).2 ≠ 0 →
      ∀ q, Takes h sock.protocol (implicitAddr h (destination sock ip port).1) 0 0 0 picks q →
        NoPeer h sock.protocol (implicitAddr h (destination sock ip port).1) q
  | .connect s family ip port picks => ∀ sock, h.sockets s=some sock →
      connectRefusal h sock family ip=none →
      (sock.isBound=false → port=0 →
        ∀ q, Takes h sock.protocol (implicitAddr h (connectAddr ip)) 0 (connectAddr ip) port picks
          q → NoPeer h sock.protocol (implicitAddr h (connectAddr ip)) q) ∧
      (sock.isBound=true → sock.protocol=.udp → family=.inet → port ≠ 0 →
        ∀ i k, h.boundSockets i k=some s →
          k.General ∨ (k.peerAddr=connectAddr ip ∧ k.peerPort=port))

/-- The two sockets differ at most in their peer and in their TCP state. -/
structure SameBound (a b : Socket) : Prop where
  protocol : b.protocol=a.protocol
  boundAddress : b.boundAddress=a.boundAddress
  boundPort : b.boundPort=a.boundPort
  isBound : b.isBound=a.isBound

/-- What a call does to the host, with the condition under which it keeps the sockets apart. -/
inductive Effect (h : Host) : Host → Prop → Prop
  | stay : Effect h h True
  | opened (p : ProtocolType) : Effect h (socketNew h p) True
  | taken (s : ℕ) (sock next : Socket) (addr q peerAddr peerPort : ℕ)
      (open_ : h.sockets s=some sock) (unbound : sock.isBound=false)
      (interface : doesInterfaceExist h addr=true)
      (available : isInterfaceAvailable h sock.protocol addr q peerAddr peerPort=true)
      (any : addr=inaddrAny → peerAddr=0)
      (same : SameBound (named sock addr q peerAddr peerPort) next)
      (peer : next.getPeerName=(0,0) ∨
        next.getPeerName=(named sock addr q peerAddr peerPort).getPeerName) :
      Effect h ((taken h s sock addr q peerAddr peerPort).setSocket s (some next))
        (peerAddr=0 ∨ peerPort=0 → NoPeer h sock.protocol addr q)
  | kept (s : ℕ) (sock next : Socket) (open_ : h.sockets s=some sock)
      (same : SameBound sock next) (peer : next.getPeerName=sock.getPeerName) :
      Effect h (h.setSocket s (some next)) True
  | renamed (s : ℕ) (sock next : Socket) (open_ : h.sockets s=some sock)
      (bound : sock.isBound=true) (same : SameBound sock next) :
      Effect h (h.setSocket s (some next)) (∀ i k, h.boundSockets i k=some s →
        k.General ∨ next.getPeerName=(0,0) ∨ next.getPeerName=(k.peerAddr,k.peerPort))
  | closed (s : ℕ) (sock : Socket) (open_ : h.sockets s=some sock) :
      Effect h ((disassociateInterface h sock).setSocket s none) True

lemma SameBound.refl (sock : Socket) : SameBound sock sock := ⟨rfl,rfl,rfl,rfl⟩

lemma sameBound_connectToPeer (sock : Socket) (ip port : ℕ) (family : Family) :
    SameBound sock (connectToPeer sock ip port family) := by
  unfold connectToPeer
  split
  · split_ifs <;> exact ⟨rfl,rfl,rfl,rfl⟩
  · exact ⟨rfl,rfl,rfl,rfl⟩

lemma connectAddr_ne (ip : ℕ) : connectAddr ip ≠ 0 := by
  unfold connectAddr
  split_ifs with hip
  · decide
  · exact hip

lemma implicitAddr_exists (h : Host) (ip : ℕ) : doesInterfaceExist h (implicitAddr h ip)=true := by
  rw [doesInterfaceExist_iff,mem_interfaces]
  unfold implicitAddr
  split_ifs
  · exact Or.inr (Or.inr rfl)
  · exact Or.inr (Or.inl rfl)

lemma implicitAddr_ne (h : Host) (ip : ℕ) : implicitAddr h ip ≠ inaddrAny := by
  unfold implicitAddr
  split_ifs
  · decide
  · exact h.default_ne_any

lemma setSocket_self (h : Host) (s : ℕ) (o : Option Socket) (hs : h.sockets s=o) :
    h.setSocket s o=h := by
  rw [Host.setSocket,← hs,Function.update_eq_self]

@[simp] lemma sockets_taken (h : Host) (s : ℕ) (sock : Socket) (addr q peerAddr peerPort : ℕ) :
    (taken h s sock addr q peerAddr peerPort).sockets s=
      some (named sock addr q peerAddr peerPort) := by
  simp [taken,place,Host.setSocket]

lemma Takes.unique {h : Host} {type : ProtocolType} {addr port peerAddr peerPort q r : ℕ}
    {picks : ℕ → Fin (65536-minRandomPort)}
    (hq : Takes h type addr port peerAddr peerPort picks q)
    (hr : Takes h type addr port peerAddr peerPort picks r) : q=r :=
  Option.some.inj (hq.port.symm.trans hr.port)

/-- A call whose bind stops changes nothing, and so does not break the condition. -/
lemma exec_error {h : Host} {c : Call} {e : Stop} (he : step h c=.error e) : exec h c=h := by
  rw [exec,he]

lemma exec_ok {h h' : Host} {c : Call} (he : step h c=.ok h') : exec h c=h' := by
  rw [exec,he]

/-- The effect of a call is known, its condition is the one of the effect, and its assertion
holds. -/
def HasEffect (h : Host) (c : Call) : Prop :=
  ∃ P, Effect h (exec h c) P ∧ (Clear h c ↔ P) ∧ step h c ≠ .error .abort

lemma hasEffect_error {h : Host} {c : Call} {e : Stop} (he : step h c=.error e) (hne : e ≠ .abort)
    (hc : Clear h c) : HasEffect h c := by
  refine ⟨True,?_,iff_true_intro hc,?_⟩
  · rw [exec_error he]
    exact .stay
  · rw [he]
    simpa using hne

lemma hasEffect_ok {h h' : Host} {c : Call} {P : Prop} (he : step h c=.ok h') (hp : Effect h h' P)
    (hc : Clear h c ↔ P) : HasEffect h c := by
  refine ⟨P,?_,hc,?_⟩
  · rw [exec_ok he]
    exact hp
  · rw [he]
    simp

/-- A call that associates its socket, or stops, has the effect of an association. -/
lemma hasEffect_taken {h : Host} {c : Call} {s : ℕ} {sock : Socket}
    (addr port peerAddr peerPort : ℕ) (picks : ℕ → Fin (65536-minRandomPort)) (f : Socket → Socket)
    (hs : h.sockets s=some sock) (hb : sock.isBound=false) (hany : addr=inaddrAny → peerAddr=0)
    (hsame : ∀ a, SameBound a (f a))
    (hpeer : ∀ q, (f (named sock addr q peerAddr peerPort)).getPeerName=(0,0) ∨
      (f (named sock addr q peerAddr peerPort)).getPeerName=
        (named sock addr q peerAddr peerPort).getPeerName)
    (hstep : (∃ q, Takes h sock.protocol addr port peerAddr peerPort picks q ∧ step h c=
        .ok ((taken h s sock addr q peerAddr peerPort).setSocket s
          (some (f (named sock addr q peerAddr peerPort))))) ∨
      ((∀ q, ¬Takes h sock.protocol addr port peerAddr peerPort picks q) ∧
        ∃ e, e ≠ .abort ∧ step h c=.error e))
    (hclear : Clear h c ↔ (peerAddr=0 ∨ peerPort=0 →
      ∀ q, Takes h sock.protocol addr port peerAddr peerPort picks q →
        NoPeer h sock.protocol addr q)) : HasEffect h c := by
  rcases hstep with ⟨q,ht,hq⟩ | ⟨hn,e,hne,hq⟩
  · refine hasEffect_ok hq (.taken s sock _ addr q peerAddr peerPort hs hb ht.interface
      ht.available hany (hsame _) (hpeer q)) ?_
    rw [hclear]
    exact ⟨fun hc hz ↦ hc hz q ht,fun hc hz r hr ↦ ht.unique hr ▸ hc hz⟩
  · exact hasEffect_error hq hne (hclear.mpr fun _ q hq ↦ absurd hq (hn q))

lemma setSocket_named (h : Host) (s : ℕ) (sock : Socket) (addr q peerAddr peerPort : ℕ)
    (f : Socket → Socket) :
    (taken h s sock addr q peerAddr peerPort).setSocket s
      (((taken h s sock addr q peerAddr peerPort).sockets s).map f)=
    (taken h s sock addr q peerAddr peerPort).setSocket s
      (some (f (named sock addr q peerAddr peerPort))) := by
  rw [sockets_taken,Option.map_some]

lemma bind_effect (h : Host) (s addr port : ℕ) (picks : ℕ → Fin (65536-minRandomPort)) :
    HasEffect h (.bind s addr port picks) := by
  cases hs : h.sockets s with
  | none => exact hasEffect_error (by simp [step,bind,hs]; rfl) (by simp) (by simp [Clear,hs])
  | some sock =>
    cases hb : sock.isBound with
    | true => exact hasEffect_error (by simp [step,bind,hs,hb]; rfl) (by simp) (by simp [Clear,hs,hb])
    | false =>
      have hstep : step h (.bind s addr port picks)=bindHelper h s sock addr port 0 0 picks := by
        simp [step,bind,hs,hb]
      refine hasEffect_taken addr port 0 0 picks id hs hb (fun _ ↦ rfl) .refl (fun q ↦ Or.inr rfl) ?_
        (by simp [Clear,hs,hb])
      rw [hstep]
      rcases bindHelper_cases h s sock addr port 0 0 picks with ⟨q,ht,hq⟩ | hn
      · exact Or.inl ⟨q,ht,by rw [hq,id,setSocket_self _ s _ (sockets_taken h s sock addr q 0 0)]⟩
      · exact Or.inr hn

lemma listen_effect (h : Host) (s : ℕ) (picks : ℕ → Fin (65536-minRandomPort)) :
    HasEffect h (.listen s picks) := by
  cases hs : h.sockets s with
  | none => exact hasEffect_error (by simp [step,listen,hs]; rfl) (by simp) (by simp [Clear,hs])
  | some sock =>
    by_cases hu : sock.protocol=.udp ∨ sock.unused=false
    · refine hasEffect_error (by simp [step,listen,hs,hu]; rfl) (by simp) ?_
      simp only [Clear,hs,Option.some.injEq,forall_eq']
      intro _ htcp hun
      simp [htcp,hun] at hu
    · obtain ⟨htcp,hun⟩ : sock.protocol=.tcp ∧ sock.unused=true := by
        cases hp : sock.protocol <;> simp_all
      cases hb : sock.isBound with
      | true =>
        have hstep : step h (.listen s picks)=
            .ok (h.setSocket s (some {sock with unused := false})) := by
          simp [step,listen,hs,htcp,hun,hb,Except.map]
        exact hasEffect_ok hstep (.kept s sock _ hs ⟨rfl,rfl,rfl,rfl⟩ rfl) (by simp [Clear,hs,hb])
      | false =>
        refine hasEffect_taken inaddrAny 0 0 0 picks (fun sock ↦ {sock with unused := false}) hs hb
          (fun _ ↦ rfl) (fun _ ↦ ⟨rfl,rfl,rfl,rfl⟩) (fun q ↦ Or.inr rfl) ?_ (by simp [Clear,hs,hb,htcp,hun])
        have hstep : step h (.listen s picks)=(bindHelper h s sock inaddrAny 0 0 0 picks).map
            fun h ↦ h.setSocket s ((h.sockets s).map fun sock ↦ {sock with unused := false}) := by
          simp [step,listen,hs,htcp,hun,hb]
        rw [hstep]
        rcases bindHelper_cases h s sock inaddrAny 0 0 0 picks with ⟨q,ht,hq⟩ | ⟨hn,e,hne,hq⟩
        · exact Or.inl ⟨q,ht,by rw [hq,Except.map,setSocket_named]⟩
        · exact Or.inr ⟨hn,e,hne,by rw [hq,Except.map]⟩

lemma sendto_effect (h : Host) (s ip port : ℕ) (picks : ℕ → Fin (65536-minRandomPort)) :
    HasEffect h (.sendto s ip port picks) := by
  cases hs : h.sockets s with
  | none => exact hasEffect_error (by simp [step,sendto,hs]; rfl) (by simp) (by simp [Clear,hs])
  | some sock =>
    cases hp : sock.protocol with
    | tcp => exact hasEffect_ok (by simp [step,sendto,hs,hp]) .stay (by simp [Clear,hs,hp])
    | udp =>
      by_cases hd : (destination sock ip port).1=0 ∨ (destination sock ip port).2=0
      · refine hasEffect_error (by simp [step,sendto,hs,hp,hd]; rfl) (by simp) ?_
        simp only [Clear,hs,Option.some.injEq,forall_eq']
        intro _ _ h1 h2
        exact absurd hd (not_or.mpr ⟨h1,h2⟩)
      · obtain ⟨h1,h2⟩ := not_or.mp hd
        cases hb : sock.isBound with
        | true =>
          exact hasEffect_ok (by simp [step,sendto,hs,hp,hd,hb]) .stay (by simp [Clear,hs,hb])
        | false =>
          have hi := implicitAddr_exists h (destination sock ip port).1
          refine hasEffect_taken (implicitAddr h (destination sock ip port).1) 0 0 0 picks id hs hb
            (fun _ ↦ rfl) .refl (fun q ↦ Or.inr rfl) ?_ (by simp [Clear,hs,hb,hp,h1,h2])
          cases hq : getRandomFreePort h sock.protocol (implicitAddr h (destination sock ip port).1)
            0 0 picks with
          | none =>
            refine Or.inr ⟨fun q t ↦ ?_,.hang,by simp,?_⟩
            · have := t.port
              simp [bindPort,hq] at this
            · rw [hp] at hq
              simp [step,sendto,hs,hp,hd,hb,hq]
          | some q =>
            by_cases hz : q=0
            · refine Or.inr ⟨fun r t ↦ t.ne ?_,.errno .eaddrnotavail,by simp,?_⟩
              · have := t.port
                simpa [bindPort,hq,hz,eq_comm] using this
              · rw [hp] at hq
                simp [step,sendto,hs,hp,hd,hb,hq,hz]
            · have hav := getRandomFreePort_available hq hz
              refine Or.inl ⟨q,⟨hi,by simp [bindPort,hq],hz,hav⟩,?_⟩
              rw [id,setSocket_self _ s _ (sockets_taken h s sock _ q 0 0),
                ← nameAndAssociate_eq hi hav s]
              rw [hp] at hq
              simp [step,sendto,hs,hp,hd,hb,hq,hz]

lemma getPeerName_connect (sock : Socket) (ip port : ℕ) (family : Family) (hf : family ≠ .other)
    (hp : sock.protocol=.udp) :
    (connectToPeer sock (connectAddr ip) port family).getPeerName=
      if family=.inet ∧ port ≠ 0 then (connectAddr ip,port) else (0,0) := by
  have hne := connectAddr_ne ip
  cases family with
  | inet =>
    by_cases hz : port=0 <;> simp [connectToPeer,hp,Socket.getPeerName,Socket.setPeerName,hne,hz]
  | unspec => simp [connectToPeer,hp,Socket.getPeerName,Socket.setPeerName]
  | other => exact absurd rfl hf

lemma connect_effect (h : Host) (s : ℕ) (family : Family) (ip port : ℕ)
    (picks : ℕ → Fin (65536-minRandomPort)) : HasEffect h (.connect s family ip port picks) := by
  cases hs : h.sockets s with
  | none => exact hasEffect_error (by simp [step,connect,hs]; rfl) (by simp) (by simp [Clear,hs])
  | some sock =>
    cases hr : connectRefusal h sock family ip with
    | some e =>
      exact hasEffect_error (by simp [step,connect,hs,hr]; rfl) (by simp) (by simp [Clear,hs,hr])
    | none =>
      have hfam : family ≠ .other := by
        rintro rfl
        simp [connectRefusal] at hr
      cases hb : sock.isBound with
      | true =>
        have hstep : step h (.connect s family ip port picks)=
            .ok (h.setSocket s (some (connectToPeer sock (connectAddr ip) port family))) := by
          simp [step,connect,hs,hr,hb,finishConnect]
        cases hp : sock.protocol with
        | tcp =>
          have hkeep : connectToPeer sock (connectAddr ip) port family=
              {sock with unused := false} := by simp [connectToPeer,hp]
          rw [hkeep] at hstep
          exact hasEffect_ok hstep (.kept s sock _ hs ⟨rfl,rfl,rfl,rfl⟩ rfl)
            (by simp [Clear,hs,hb,hp])
        | udp =>
          refine hasEffect_ok hstep (.renamed s sock _ hs hb (sameBound_connectToPeer _ _ _ _)) ?_
          rw [getPeerName_connect sock ip port family hfam hp]
          simp only [Clear,hs,Option.some.injEq,forall_eq',hr,hb,hp]
          have hne := connectAddr_ne ip
          by_cases hz : family=.inet ∧ port ≠ 0
          · simp [hz.1,hz.2,eq_comm]
          · simp [hz]
            tauto
      | false =>
        refine hasEffect_taken (implicitAddr h (connectAddr ip)) 0 (connectAddr ip) port picks
          (fun sock ↦ connectToPeer sock (connectAddr ip) port family) hs hb
          (fun hany ↦ absurd hany (implicitAddr_ne h _)) (fun _ ↦ sameBound_connectToPeer _ _ _ _)
          ?_ ?_ (by simp [Clear,hs,hr,hb,connectAddr_ne])
        · intro q
          cases hp : sock.protocol with
          | tcp =>
            right
            simp [connectToPeer,named,Socket.setPeerName,Socket.setSocketName,hp,Socket.getPeerName]
          | udp =>
            rw [getPeerName_connect (named sock _ q (connectAddr ip) port) ip port family hfam hp]
            split_ifs with hz
            · right
              simp [named,Socket.setPeerName,Socket.setSocketName,Socket.getPeerName,hz.2,
                connectAddr_ne]
            · exact Or.inl rfl
        · have hstep : step h (.connect s family ip port picks)=
              (bindHelper h s sock (implicitAddr h (connectAddr ip)) 0 (connectAddr ip) port
                picks).map fun h ↦ finishConnect h s (connectAddr ip) port family := by
            simp [step,connect,hs,hr,hb]
          rw [hstep]
          rcases bindHelper_cases h s sock (implicitAddr h (connectAddr ip)) 0 (connectAddr ip) port
            picks with ⟨q,ht,hq⟩ | ⟨hn,e,hne,hq⟩
          · exact Or.inl ⟨q,ht,by rw [hq,Except.map,finishConnect,setSocket_named]⟩
          · exact Or.inr ⟨hn,e,hne,by rw [hq,Except.map]⟩

/-- Every call has a known effect, and none fails the assertion that its key is free. -/
lemma hasEffect (h : Host) (c : Call) : HasEffect h c := by
  cases c with
  | socket p => exact hasEffect_ok rfl (.opened p) (by simp [Clear])
  | bind s addr port picks => exact bind_effect h s addr port picks
  | connect s family ip port picks => exact connect_effect h s family ip port picks
  | listen s picks => exact listen_effect h s picks
  | sendto s ip port picks => exact sendto_effect h s ip port picks
  | close s =>
    cases hs : h.sockets s with
    | none => exact hasEffect_error (by simp [step,close,hs]; rfl) (by simp) (by simp [Clear])
    | some sock =>
      exact hasEffect_ok (by simp [step,close,hs]) (.closed s sock hs) (by simp [Clear])

end Net
end Phantom
