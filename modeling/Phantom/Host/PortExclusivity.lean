import Phantom.Host.PortEffect

/-! Which runs keep the sockets of a host apart. -/
namespace Phantom
namespace Net

/-- The packet finds the socket under one of the two keys that an interface looks up. -/
def Matches (h : Host) (i : ℕ) (p : Packet) (s : ℕ) : Prop :=
  h.boundSockets i p.generalKey=some s ∨ h.boundSockets i p.specificKey=some s

/-- No packet matches two sockets: a general and a peer-specific association of one port never
coexist, no key is associated twice, and a connected socket receives the packets of its peer. -/
structure PortExclusive (h : Host) : Prop where
  matched : ∀ i p s t, Matches h i p s → Matches h i p t → s=t
  apart : ∀ i k s, h.boundSockets i k=some s → ¬k.General → h.boundSockets i k.general=none
  once : ∀ c, step h c ≠ .error .abort
  receives : ∀ s sock i, h.sockets s=some sock → sock.isBound=true → sock.peerIP ≠ 0 →
    sock.peerPort ≠ 0 → Covers h sock.boundAddress i →
    receivePacket h i ⟨sock.protocol,sock.peerIP,sock.peerPort,sock.boundPort⟩=some s

/-- An open socket stays under the key of its bind, whatever peer it has now. -/
structure Registered (h : Host) (s : ℕ) (sock : Socket) (k : AssociationKey) : Prop where
  protocol : k.protocol=sock.protocol
  port : k.port=sock.boundPort
  interface : doesInterfaceExist h sock.boundAddress=true
  entry : ∀ i, Covers h sock.boundAddress i → h.boundSockets i k=some s
  peer : k.General ∨ (sock.boundAddress ≠ inaddrAny ∧
    (sock.getPeerName=(0,0) ∨ sock.getPeerName=(k.peerAddr,k.peerPort)))

structure Separated (h : Host) : Prop where
  unborn : ∀ s, h.nextSocket ≤ s → h.sockets s=none
  born : ∀ i k s, h.boundSockets i k=some s → s<h.nextSocket
  apart : ∀ i k s, h.boundSockets i k=some s → ¬k.General → h.boundSockets i k.general=none
  single : ∀ i j k l s, h.boundSockets i k=some s → h.boundSockets j l=some s → k=l
  unbound : ∀ s sock, h.sockets s=some sock → sock.isBound=false → ∀ i k, h.boundSockets i k ≠ some s
  bound : ∀ s sock, h.sockets s=some sock → sock.isBound=true → ∃ k, Registered h s sock k

lemma separated_new (ip : ℕ) (hip : ip ≠ inaddrAny) (routable : ℕ → Bool) :
    Separated (.new ip hip routable) := by
  constructor <;> simp [Host.new]

lemma separated_socketNew {h : Host} (hs : Separated h) (p : ProtocolType) :
    Separated (socketNew h p) := by
  obtain ⟨hub,hbn,hap,hsi,hun,hbo⟩ := hs
  refine ⟨fun s h' ↦ ?_,fun i k s h' ↦ ?_,hap,hsi,fun s sock h' hb i k he ↦ ?_,
    fun s sock h' hb ↦ ?_⟩
  · simp only [socketNew,Host.setSocket] at h' ⊢
    rw [Function.update_of_ne (by omega)]
    exact hub s (by omega)
  · exact Nat.lt_succ_of_lt (hbn i k s h')
  · simp only [socketNew,Host.setSocket,Function.update_apply] at h'
    split_ifs at h' with hn
    · exact absurd (hbn i k s he) (by omega)
    · exact hun s sock h' hb i k he
  · simp only [socketNew,Host.setSocket,Function.update_apply] at h'
    split_ifs at h' with hn
    · cases h'
      simp [Socket.new] at hb
    · obtain ⟨k,hk⟩ := hbo s sock h' hb
      exact ⟨k,⟨hk.protocol,hk.port,hk.interface,hk.entry,hk.peer⟩⟩

lemma separated_setSocket {h : Host} (hs : Separated h) {s : ℕ} {sock next : Socket}
    (ho : h.sockets s=some sock) (same : SameBound sock next)
    (hp : sock.isBound=true → ∀ k, Registered h s sock k →
      k.General ∨ next.getPeerName=(0,0) ∨ next.getPeerName=(k.peerAddr,k.peerPort)) :
    Separated (h.setSocket s (some next)) := by
  obtain ⟨hub,hbn,hap,hsi,hun,hbo⟩ := hs
  refine ⟨fun t h' ↦ ?_,hbn,hap,hsi,fun t sock' h' hb i k ↦ ?_,fun t sock' h' hb ↦ ?_⟩
  · simp only [Host.setSocket,Function.update_apply]
    split_ifs with ht
    · subst ht
      simp [hub t h'] at ho
    · exact hub t h'
  · simp only [Host.setSocket,Function.update_apply] at h'
    split_ifs at h' with ht
    · cases h'
      subst ht
      exact hun t sock ho (same.isBound.symm.trans hb) i k
    · exact hun t sock' h' hb i k
  · simp only [Host.setSocket,Function.update_apply] at h'
    split_ifs at h' with ht
    · cases h'
      subst ht
      have hb' := same.isBound.symm.trans hb
      obtain ⟨k,hk⟩ := hbo t sock ho hb'
      refine ⟨k,hk.protocol.trans same.protocol.symm,hk.port.trans same.boundPort.symm,?_,?_,?_⟩
      · rw [same.boundAddress]
        exact hk.interface
      · rw [same.boundAddress]
        exact hk.entry
      · rw [same.boundAddress]
        rcases hk.peer with hg | hg
        · exact Or.inl hg
        · exact (hp hb' k hk).imp_right fun hn ↦ ⟨hg.1,hn⟩
    · obtain ⟨k,hk⟩ := hbo t sock' h' hb
      exact ⟨k,⟨hk.protocol,hk.port,hk.interface,hk.entry,hk.peer⟩⟩

lemma boundSockets_taken (h : Host) (s : ℕ) (sock : Socket) (addr q peerAddr peerPort i : ℕ)
    (k : AssociationKey) : (taken h s sock addr q peerAddr peerPort).boundSockets i k=
      if Covers h addr i ∧ k=socketToAssociationKey (named sock addr q peerAddr peerPort) then some s
      else h.boundSockets i k := rfl

lemma general_key_named {sock : Socket} {addr q peerAddr peerPort : ℕ} :
    (socketToAssociationKey (named sock addr q peerAddr peerPort)).General ↔
      peerAddr=0 ∨ peerPort=0 := by
  rw [key_named]
  split_ifs with hz
  · simp [AssociationKey.General,hz]
  · simp only [AssociationKey.General,hz,iff_false]
    exact fun hg ↦ hz (Or.inl hg.1)

/-- Taking a port keeps the general and the peer-specific associations apart exactly when no
peer-specific association is shadowed. -/
lemma apart_taken_iff {h : Host} {s : ℕ} {sock : Socket} {addr q peerAddr peerPort : ℕ}
    (hap : ∀ i k s, h.boundSockets i k=some s → ¬k.General → h.boundSockets i k.general=none)
    (hi : doesInterfaceExist h addr=true)
    (hq : isInterfaceAvailable h sock.protocol addr q peerAddr peerPort=true) :
    (∀ i k t, (taken h s sock addr q peerAddr peerPort).boundSockets i k=some t → ¬k.General →
      (taken h s sock addr q peerAddr peerPort).boundSockets i k.general=none) ↔
    (peerAddr=0 ∨ peerPort=0 → NoPeer h sock.protocol addr q) := by
  have hfree := (isInterfaceAvailable_iff hi _ _ _ _).mp hq
  simp only [boundSockets_taken]
  constructor
  · intro ha hz i hc k hkp hkq hkg
    have hkey : socketToAssociationKey (named sock addr q peerAddr peerPort)=k.general := by
      rw [key_named,if_pos hz,AssociationKey.general,hkp,hkq]
    have hne : k ≠ k.general := fun he ↦ hkg (by rw [he]; exact ⟨rfl,rfl⟩)
    cases he : h.boundSockets i k with
    | none => rfl
    | some t =>
      have := ha i k t (by rw [hkey,if_neg fun hh ↦ hne hh.2,he]) hkg
      rw [hkey,if_pos ⟨hc,rfl⟩] at this
      cases this
  · intro hn i k t hk hkg
    split_ifs at hk with hnew
    · obtain ⟨hc,rfl⟩ := hnew
      have hz := mt general_key_named.mpr hkg
      have hgen : (socketToAssociationKey (named sock addr q peerAddr peerPort)).general=
          ⟨sock.protocol,q,0,0⟩ := by rw [key_named,if_neg hz]; rfl
      rw [hgen,if_neg]
      · exact (hfree i hc).1
      · rintro ⟨-,he⟩
        exact hkg (by rw [← he]; exact ⟨rfl,rfl⟩)
    · rw [if_neg]
      · exact hap i k t hk hkg
      · rintro ⟨hc,he⟩
        have hz := general_key_named.mp (show
          (socketToAssociationKey (named sock addr q peerAddr peerPort)).General by
            rw [← he]; exact ⟨rfl,rfl⟩)
        rw [key_named,if_pos hz,AssociationKey.general,AssociationKey.mk.injEq] at he
        have := hn hz i hc k he.1 he.2.1 hkg
        rw [hk] at this
        cases this

lemma separated_taken {h : Host} (hs : Separated h) {s : ℕ} {sock : Socket}
    {addr q peerAddr peerPort : ℕ} (ho : h.sockets s=some sock) (hu : sock.isBound=false)
    (hi : doesInterfaceExist h addr=true)
    (hq : isInterfaceAvailable h sock.protocol addr q peerAddr peerPort=true)
    (hany : addr=inaddrAny → peerAddr=0)
    (hn : peerAddr=0 ∨ peerPort=0 → NoPeer h sock.protocol addr q) :
    Separated (taken h s sock addr q peerAddr peerPort) := by
  obtain ⟨hub,hbn,hap,hsi,hun,hbo⟩ := hs
  have hlt : s<h.nextSocket := by
    by_contra hge
    simp [hub s (by omega)] at ho
  have hfree := (isInterfaceAvailable_iff hi _ _ _ _).mp hq
  have hkeyfree : ∀ i, Covers h addr i → h.boundSockets i
      (socketToAssociationKey (named sock addr q peerAddr peerPort))=none := by
    intro i hc
    rw [key_named]
    split_ifs
    · exact (hfree i hc).1
    · exact (hfree i hc).2
  have hsock : ∀ t, (taken h s sock addr q peerAddr peerPort).sockets t=
      if t=s then some (named sock addr q peerAddr peerPort) else h.sockets t := by
    intro t
    simp only [taken,place,Host.setSocket,Function.update_apply]
  refine ⟨fun t ht ↦ ?_,fun i k t hk ↦ ?_,(apart_taken_iff hap hi hq).mpr hn,
    fun i j k l t hk hl ↦ ?_,fun t sock' h' hb i k ↦ ?_,fun t sock' h' hb ↦ ?_⟩
  · change h.nextSocket ≤ t at ht
    rw [hsock,if_neg (by omega)]
    exact hub t ht
  · rw [boundSockets_taken] at hk
    split_ifs at hk
    · cases hk
      exact hlt
    · exact hbn i k t hk
  · rw [boundSockets_taken] at hk hl
    split_ifs at hk hl with h1 h2 h2
    · rw [h1.2,h2.2]
    · cases hk
      exact absurd hl (hun s sock ho hu j l)
    · cases hl
      exact absurd hk (hun s sock ho hu i k)
    · exact hsi i j k l t hk hl
  · rw [hsock] at h'
    split_ifs at h' with hts
    · cases h'
      simp [named,Socket.setSocketName] at hb
    · rw [boundSockets_taken]
      split_ifs
      · exact fun he ↦ hts (Option.some.inj he).symm
      · exact hun t sock' h' hb i k
  · rw [hsock] at h'
    split_ifs at h' with hts
    · cases h'
      subst hts
      refine ⟨socketToAssociationKey (named sock addr q peerAddr peerPort),rfl,rfl,hi,?_,?_⟩
      · intro i hc
        rw [boundSockets_taken,if_pos ⟨hc,rfl⟩]
      · by_cases hz : peerAddr=0 ∨ peerPort=0
        · exact Or.inl (general_key_named.mpr hz)
        · exact Or.inr ⟨fun ha ↦ hz (Or.inl (hany ha)),Or.inr rfl⟩
    · obtain ⟨k,hk⟩ := hbo t sock' h' hb
      refine ⟨k,hk.protocol,hk.port,hk.interface,fun i hc ↦ ?_,hk.peer⟩
      rw [boundSockets_taken,if_neg]
      · exact hk.entry i hc
      · rintro ⟨hc',rfl⟩
        have he := hk.entry i hc
        rw [hkeyfree i hc'] at he
        cases he

lemma covers_getSocketAddress {h : Host} {sock : Socket} {i : ℕ}
    (hc : Covers h sock.getSocketAddress i) : Covers h sock.boundAddress i := by
  unfold Socket.getSocketAddress at hc
  split_ifs at hc with ha
  · exact ⟨hc.1,Or.inl ha.1⟩
  · exact hc

/-- The key that a close looks up, from the present names of the socket, is its own or free. -/
lemma Registered.removes {h : Host} (hs : Separated h) {s : ℕ} {sock : Socket} {k : AssociationKey}
    (hk : Registered h s sock k) {i t : ℕ} (hc : Covers h sock.boundAddress i)
    (ht : h.boundSockets i (socketToAssociationKey sock)=some t) : t=s := by
  have hent := hk.entry i hc
  have hkey : ∀ l : AssociationKey, l.protocol=k.protocol → l.port=k.port → l.general=k.general := by
    intro l h1 h2
    rw [AssociationKey.general,AssociationKey.general,h1,h2]
  have hgen := hkey (socketToAssociationKey sock) hk.protocol.symm hk.port.symm
  have hself : ∀ l : AssociationKey, l.General → l.general=l := by
    rintro ⟨_,_,_,_⟩ ⟨rfl,rfl⟩
    rfl
  by_cases hg : (socketToAssociationKey sock).General
  · by_cases hkg : k.General
    · rw [hself _ hg,hself _ hkg] at hgen
      rw [hgen,hent] at ht
      exact (Option.some.inj ht).symm
    · have := hs.apart i k s hent hkg
      rw [← hgen,hself _ hg,ht] at this
      cases this
  · have hnone := hs.apart i _ t ht hg
    rcases hk.peer with hkg | ⟨-,hz | he⟩
    · rw [hgen,hself _ hkg,hent] at hnone
      cases hnone
    · exact absurd ⟨congrArg Prod.fst hz,congrArg Prod.snd hz⟩ hg
    · have heq : socketToAssociationKey sock=k := by
        rw [socketToAssociationKey,he,← hk.protocol,← hk.port]
      rw [heq,hent] at ht
      exact (Option.some.inj ht).symm

/-- The tables of `h'` are those of `h` without some entries of `s`. -/
structure Loses (h h' : Host) (s : ℕ) : Prop where
  defaultIP : h'.defaultIP=h.defaultIP
  sockets : h'.sockets=h.sockets
  nextSocket : h'.nextSocket=h.nextSocket
  sub : ∀ i k t, h'.boundSockets i k=some t → h.boundSockets i k=some t
  keeps : ∀ i k t, t ≠ s → h.boundSockets i k=some t → h'.boundSockets i k=some t

lemma disassociateInterface_loses {h : Host} (hs : Separated h) {s : ℕ} {sock : Socket}
    (ho : h.sockets s=some sock) : Loses h (disassociateInterface h sock) s := by
  cases hb : sock.isBound with
  | false =>
    have heq : disassociateInterface h sock=h := by simp [disassociateInterface,hb]
    rw [heq]
    exact ⟨rfl,rfl,rfl,fun i k t he ↦ he,fun i k t _ he ↦ he⟩
  | true =>
    obtain ⟨k,hk⟩ := hs.bound s sock ho hb
    rw [disassociateInterface_eq hb (getSocketAddress_exists hk.interface)]
    refine ⟨rfl,rfl,rfl,fun i l t he ↦ ?_,fun i l t hne he ↦ ?_⟩
    · simp only [place] at he
      split_ifs at he
      exact he
    · simp only [place]
      split_ifs with hc
      · obtain ⟨hc,rfl⟩ := hc
        exact absurd (hk.removes hs (covers_getSocketAddress hc) he) hne
      · exact he

lemma separated_closed {h h' : Host} (hs : Separated h) {s : ℕ} (hl : Loses h h' s) :
    Separated (h'.setSocket s none) := by
  have hcov : ∀ a i, Covers h' a i ↔ Covers h a i := by
    intro a i
    simp only [Covers,mem_interfaces,hl.defaultIP]
  obtain ⟨hub,hbn,hap,hsi,hun,hbo⟩ := hs
  refine ⟨fun t ht ↦ ?_,fun i k t hk ↦ ?_,fun i k t hk hg ↦ ?_,
    fun i j k l t hk hl' ↦ hsi i j k l t (hl.sub _ _ _ hk) (hl.sub _ _ _ hl'),
    fun t sock' h1 hb i k hk ↦ ?_,fun t sock' h1 hb ↦ ?_⟩
  · simp only [Host.setSocket,Function.update_apply,hl.sockets,hl.nextSocket] at ht ⊢
    split_ifs
    · rfl
    · exact hub t ht
  · change t<h'.nextSocket
    rw [hl.nextSocket]
    exact hbn i k t (hl.sub i k t hk)
  · have hnone := hap i k t (hl.sub i k t hk) hg
    change h'.boundSockets i k.general=none
    cases he : h'.boundSockets i k.general with
    | none => rfl
    | some u =>
      rw [hl.sub _ _ _ he] at hnone
      cases hnone
  · simp only [Host.setSocket,Function.update_apply,hl.sockets] at h1
    split_ifs at h1
    exact hun t sock' h1 hb i k (hl.sub i k t hk)
  · simp only [Host.setSocket,Function.update_apply,hl.sockets] at h1
    split_ifs at h1 with hts
    obtain ⟨k,hk⟩ := hbo t sock' h1 hb
    refine ⟨k,hk.protocol,hk.port,?_,fun i hc ↦ ?_,hk.peer⟩
    · have := hk.interface
      rw [doesInterfaceExist_iff,mem_interfaces] at this ⊢
      simpa [Host.setSocket,hl.defaultIP] using this
    · exact hl.keeps i k t hts (hk.entry i ((hcov _ i).mp hc))

lemma getPeerName_of_ne {sock : Socket} (h1 : sock.peerIP ≠ 0) (h2 : sock.peerPort ≠ 0) :
    sock.getPeerName=(sock.peerIP,sock.peerPort) := by
  simp [Socket.getPeerName,h1,h2]

lemma receivePacket_of_none {h : Host} {i : ℕ} {p : Packet}
    (hnone : h.boundSockets i p.generalKey=none) :
    receivePacket h i p=h.boundSockets i p.specificKey := by
  rw [receivePacket,hnone]

lemma exclusive_of_separated {h : Host} (hs : Separated h) : PortExclusive h := by
  refine ⟨fun i p s t h1 h2 ↦ ?_,hs.apart,fun c ↦ (hasEffect h c).choose_spec.2.2,
    fun s sock i ho hb h1 h2 hc ↦ ?_⟩
  · by_cases hg : p.specificKey.General
    · have he : p.specificKey=p.generalKey :=
        (AssociationKey.mk.injEq ..).mpr ⟨rfl,rfl,hg.1,hg.2⟩
      rw [Matches,he,or_self] at h1 h2
      exact Option.some.inj (h1.symm.trans h2)
    · have hnone : ∀ u, h.boundSockets i p.specificKey=some u →
          h.boundSockets i p.generalKey=none := fun u hu ↦ hs.apart i _ u hu hg
      rcases h1 with h1 | h1 <;> rcases h2 with h2 | h2
      · exact Option.some.inj (h1.symm.trans h2)
      · rw [hnone t h2] at h1
        cases h1
      · rw [hnone s h1] at h2
        cases h2
      · exact Option.some.inj (h1.symm.trans h2)
  · obtain ⟨⟨kp,kq,ka,kb⟩,hk⟩ := hs.bound s sock ho hb
    obtain rfl : kp=sock.protocol := hk.protocol
    obtain rfl : kq=sock.boundPort := hk.port
    have hent := hk.entry i hc
    have hpeer := getPeerName_of_ne h1 h2
    rcases hk.peer with hg | ⟨-,h0 | he⟩
    · obtain ⟨rfl,rfl⟩ : ka=0 ∧ kb=0 := hg
      rw [receivePacket,Packet.generalKey,hent]
    · rw [hpeer] at h0
      exact absurd (congrArg Prod.fst h0) h1
    · rw [hpeer] at he
      obtain ⟨rfl,rfl⟩ : sock.peerIP=ka ∧ sock.peerPort=kb := Prod.mk.injEq .. ▸ he
      have hnone := hs.apart i _ s hent fun hg ↦ h1 hg.1
      rw [AssociationKey.general] at hnone
      rw [receivePacket_of_none hnone]
      exact hent

lemma separated_effect {h h' : Host} {P : Prop} (hs : Separated h) (he : Effect h h' P) (hp : P) :
    Separated h' := by
  cases he with
  | stay => exact hs
  | opened p => exact separated_socketNew hs p
  | taken s sock next addr q peerAddr peerPort ho hu hi ha hany same peer =>
    refine separated_setSocket (separated_taken hs ho hu hi ha hany hp) (sockets_taken ..) same ?_
    intro _ k hk
    rcases hk.peer with hg | ⟨-,hz | hz⟩
    · exact Or.inl hg
    · refine Or.inr (Or.inl ?_)
      rcases peer with h0 | h0
      · exact h0
      · rw [h0,hz]
    · refine Or.inr (peer.imp_right fun h0 ↦ ?_)
      rw [h0,hz]
  | kept s sock next ho same peer =>
    refine separated_setSocket hs ho same fun _ k hk ↦ ?_
    rw [peer]
    exact hk.peer.imp_right And.right
  | renamed s sock next ho hb same =>
    refine separated_setSocket hs ho same fun _ k hk ↦ ?_
    obtain ⟨i,hc⟩ := exists_covers hk.interface
    exact hp i k (hk.entry i hc)
  | closed s sock ho => exact separated_closed hs (disassociateInterface_loses hs ho)

/-- A socket that is associated for one peer and gets another does not receive from it. -/
lemma not_receives_renamed {h : Host} (hs : Separated h) {s i : ℕ} {sock next : Socket}
    {k : AssociationKey} (ho : h.sockets s=some sock) (hb : sock.isBound=true)
    (same : SameBound sock next) (hk : h.boundSockets i k=some s) (hg : ¬k.General)
    (hz : next.getPeerName ≠ (0,0)) (hne : next.getPeerName ≠ (k.peerAddr,k.peerPort)) :
    ¬PortExclusive (h.setSocket s (some next)) := by
  intro hex
  obtain ⟨l,hl⟩ := hs.bound s sock ho hb
  obtain ⟨j,hc⟩ := exists_covers hl.interface
  have hent := hl.entry j hc
  obtain rfl := hs.single i j k l s hk hent
  have hnext : next.peerIP ≠ 0 ∧ next.peerPort ≠ 0 := by
    unfold Socket.getPeerName at hz
    split_ifs at hz with h0
    · exact absurd rfl hz
    · exact not_or.mp h0
  have hrec := hex.receives s next j (by simp [Host.setSocket]) (same.isBound.trans hb) hnext.1
    hnext.2 (same.boundAddress ▸ hc)
  have hgeneral : k.general=⟨next.protocol,next.boundPort,0,0⟩ := by
    rw [AssociationKey.general,hl.protocol,hl.port,← same.protocol,← same.boundPort]
  have hnone : h.boundSockets j ⟨next.protocol,next.boundPort,0,0⟩=none := by
    rw [← hgeneral]
    exact hs.apart j k s hent hg
  have hspecific : h.boundSockets j ⟨next.protocol,next.boundPort,next.peerIP,next.peerPort⟩=some s := by
    have heq := receivePacket_of_none (h := h.setSocket s (some next))
      (p := ⟨next.protocol,next.peerIP,next.peerPort,next.boundPort⟩) hnone
    exact heq.symm.trans hrec
  have hkey := hs.single j j k _ s hent hspecific
  rw [getPeerName_of_ne hnext.1 hnext.2] at hne
  exact hne (by rw [hkey])

lemma condition_of_exclusive {h h' : Host} {P : Prop} (hs : Separated h) (he : Effect h h' P)
    (hex : PortExclusive h') : P := by
  cases he with
  | stay => trivial
  | opened p => trivial
  | taken s sock next addr q peerAddr peerPort ho hu hi ha hany same peer =>
    exact (apart_taken_iff hs.apart hi ha).mp hex.apart
  | kept s sock next ho same peer => trivial
  | renamed s sock next ho hb same =>
    intro i k hk
    by_contra hcon
    obtain ⟨hg,hz,hne⟩ : ¬k.General ∧ next.getPeerName ≠ (0,0) ∧
        next.getPeerName ≠ (k.peerAddr,k.peerPort) := by
      simpa only [not_or] using hcon
    exact not_receives_renamed hs ho hb same hk hg hz hne hex
  | closed s sock ho => trivial

/-- The states of a run as it goes. -/
def stateAt (h : Host) (cs : List Call) (n : ℕ) : Host := run h (cs.take n)

lemma stateAt_succ (h : Host) (cs : List Call) (n : ℕ) :
    stateAt h cs (n+1)=match cs[n]? with
      | some c => exec (stateAt h cs n) c
      | none => stateAt h cs n := by
  unfold stateAt run
  rw [List.take_add_one,List.foldl_append]
  cases cs[n]? <;> rfl

lemma separated_exec {h : Host} {c : Call} (hs : Separated h) (hc : Clear h c) :
    Separated (exec h c) := by
  obtain ⟨P,he,hiff,-⟩ := hasEffect h c
  exact separated_effect hs he (hiff.mp hc)

lemma clear_of_exclusive {h : Host} {c : Call} (hs : Separated h) (hex : PortExclusive (exec h c)) :
    Clear h c := by
  obtain ⟨P,he,hiff,-⟩ := hasEffect h c
  exact hiff.mpr (condition_of_exclusive hs he hex)

lemma separated_stateAt {h : Host} {cs : List Call} (hs : Separated h)
    (hc : ∀ n c, Separated (stateAt h cs n) → cs[n]?=some c → Clear (stateAt h cs n) c) (n : ℕ) :
    Separated (stateAt h cs n) := by
  induction n with
  | zero => exact hs
  | succ n ih =>
    rw [stateAt_succ]
    split
    · rename_i c hn
      exact separated_exec ih (hc n c ih hn)
    · exact ih

/-- In a run from a fresh host the sockets stay exclusive in every state exactly when every call
is clear in the state that it finds. -/
theorem ports_exclusive_iff (ip : ℕ) (hip : ip ≠ inaddrAny) (routable : ℕ → Bool)
    (cs : List Call) :
    (∀ n, PortExclusive (stateAt (.new ip hip routable) cs n)) ↔
      ∀ n c, cs[n]?=some c → Clear (stateAt (.new ip hip routable) cs n) c := by
  have hnew := separated_new ip hip routable
  constructor
  · intro hex
    have hclear : ∀ n c, Separated (stateAt (.new ip hip routable) cs n) → cs[n]?=some c →
        Clear (stateAt (.new ip hip routable) cs n) c := by
      intro n c hs hc
      have hnext := hex (n+1)
      rw [stateAt_succ,hc] at hnext
      exact clear_of_exclusive hs hnext
    exact fun n c hc ↦ hclear n c (separated_stateAt hnew hclear n) hc
  · intro hclear n
    exact exclusive_of_separated (separated_stateAt hnew (fun n c _ hc ↦ hclear n c hc) n)

lemma randomPorts_pos : 0<65536-minRandomPort := by decide

def lowestPick : ℕ → Fin (65536-minRandomPort) := fun _ ↦ ⟨0,randomPorts_pos⟩

/-- A connection from the ephemeral port 10000 of 11.0.0.1 to port 80 of 11.0.0.2. -/
def connectCalls : List Call :=
  [.socket .tcp,.connect 0 .inet 33554443 (htons 80) lowestPick]

/-- The connection is up and another socket binds its port. -/
def shadowCalls : List Call :=
  connectCalls++[.socket .tcp,.bind 1 inaddrAny (htons 10000) lowestPick]

theorem ports_exclusive_connection :
    (16777227 : ℕ) ≠ inaddrAny ∧
      PortExclusive (stateAt (.new 16777227 (by decide) fun _ ↦ true) connectCalls 2) := by
  refine ⟨by decide,(ports_exclusive_iff 16777227 (by decide) (fun _ ↦ true) connectCalls).mpr ?_ 2⟩
  intro n c hc
  match n with
  | 0 =>
    cases hc
    trivial
  | 1 =>
    cases hc
    rintro sock ⟨⟩ -
    exact ⟨fun _ h ↦ absurd h (by decide),fun h ↦ absurd h (by decide)⟩
  | n+2 => simp [connectCalls] at hc

theorem connection_shadowed :
    receivePacket (run (.new 16777227 (by decide) fun _ ↦ true) connectCalls) 16777227
        ⟨.tcp,33554443,htons 80,htons 10000⟩=some 0 ∧
      receivePacket (run (.new 16777227 (by decide) fun _ ↦ true) shadowCalls) 16777227
        ⟨.tcp,33554443,htons 80,htons 10000⟩=some 1 ∧
      ¬PortExclusive (run (.new 16777227 (by decide) fun _ ↦ true) shadowCalls) := by
  refine ⟨by decide,by decide,fun hex ↦ ?_⟩
  have hrec := hex.receives 0
    ⟨.tcp,33554443,htons 80,16777227,htons 10000,true,false⟩ 16777227 (by rfl) rfl (by decide)
    (by decide) (by decide)
  exact absurd hrec (by decide)

end Net
end Phantom
