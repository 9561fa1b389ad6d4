import Phantom.Host.PortEffect

/-! How long the associations of a socket last. -/
namespace Phantom
namespace Net

/-- A host with the record of the entries that each socket's bind created. -/
structure Ledger where
  host : Host
  created : ℕ → ℕ → AssociationKey → Bool

def isBoundAt (h : Host) (s : ℕ) : Bool := (h.sockets s).any Socket.isBound

namespace Ledger

def new (ip : ℕ) (hip : ip≠inaddrAny) (routable : ℕ → Bool) : Ledger :=
  ⟨.new ip hip routable,fun _ _ _ ↦ false⟩

/-- The next host; a socket that has become bound has its entries recorded. -/
def record (l : Ledger) (h : Host) : Ledger where
  host := h
  created s := if !isBoundAt l.host s && isBoundAt h s then fun i k ↦ h.boundSockets i k=some s
    else l.created s

def exec (l : Ledger) (c : Call) : Ledger := l.record (Net.exec l.host c)

/-- The entries of an open socket are those its bind created, and a closed socket has none. -/
structure Exact (l : Ledger) : Prop where
  entries : ∀ s sock, l.host.sockets s=some sock →
    ∀ i k, l.host.boundSockets i k=some s ↔ l.created s i k
  closed : ∀ s, l.host.sockets s=none → ∀ i k, l.host.boundSockets i k≠some s

/-- A socket that the call closes. -/
def Closes (l : Ledger) (c : Call) (s : ℕ) (sock : Socket) : Prop :=
  l.host.sockets s=some sock ∧ (Net.exec l.host c).sockets s=none

/-- Where the call closes a socket, its port can be associated again as it was, unless another
socket has it for every peer. -/
def Frees (l : Ledger) (c : Call) : Prop :=
  ∀ s sock, l.Closes c s sock → ∀ i k, l.created s i k →
    isAssociated (Net.exec l.host c) i k.protocol k.port k.peerAddr k.peerPort →
    ∃ t, t≠s ∧ (Net.exec l.host c).boundSockets i k.general=some t

/-- Where the call closes a bound socket, its current names give the entries of its bind. -/
def Retraces (l : Ledger) (c : Call) : Prop :=
  ∀ s sock, l.Closes c s sock → sock.isBound → ∀ i k,
    l.created s i k ↔ Covers l.host sock.getSocketAddress i ∧ k=socketToAssociationKey sock

/-- Every state of the run is exact, and every call frees the ports it should. -/
def ExactAlong (l : Ledger) : List Call → Prop
  | [] => l.Exact
  | c::cs => l.Exact ∧ l.Frees c ∧ (l.exec c).ExactAlong cs

/-- Every call of the run retraces the binds of the sockets it closes. -/
def RetracesAlong (l : Ledger) : List Call → Prop
  | [] => True
  | c::cs => l.Retraces c ∧ (l.exec c).RetracesAlong cs

/-- What a run keeps as long as it retraces. -/
structure Inv (l : Ledger) : Prop extends Exact l where
  unborn : ∀ s, l.host.nextSocket ≤ s → l.host.sockets s=none ∧ ∀ i k, ¬l.created s i k
  unbound : ∀ s sock, l.host.sockets s=some sock → sock.isBound=false → ∀ i k, ¬l.created s i k
  bound : ∀ s sock, l.host.sockets s=some sock → sock.isBound=true →
    doesInterfaceExist l.host sock.boundAddress=true ∧
      ∃ k, ∀ i k', l.created s i k' ↔ Covers l.host sock.boundAddress i ∧ k'=k

lemma Inv.new (ip : ℕ) (hip : ip≠inaddrAny) (routable : ℕ → Bool) :
    (Ledger.new ip hip routable).Inv := by
  constructor <;> simp [Ledger.new, Host.new]
  constructor <;> simp

section
variable {l : Ledger}

lemma isBoundAt_of {h : Host} {s : ℕ} {sock : Socket} (hs : h.sockets s=some sock) :
    isBoundAt h s = sock.isBound := by simp [isBoundAt, hs]

lemma isBoundAt_iff {h : Host} {s : ℕ} :
    isBoundAt h s ↔ ∃ sock, h.sockets s=some sock ∧ sock.isBound := by
  unfold isBoundAt
  cases h.sockets s <;> simp

lemma created_record {h' : Host} (hb : ∀ s, isBoundAt h' s → isBoundAt l.host s) :
    (l.record h').created = l.created := by
  funext s
  simp only [record]
  rw [if_neg]
  simp only [Bool.and_eq_true, Bool.not_eq_true']
  rintro ⟨hold,hnew⟩
  rw [hb s hnew] at hold
  cases hold

lemma Inv.rename (h : l.Inv) {s : ℕ} {sock next : Socket} (ho : l.host.sockets s=some sock)
    (same : SameBound sock next) : (l.record (l.host.setSocket s (some next))).Inv := by
  have hcr : (l.record (l.host.setSocket s (some next))).created = l.created := by
    refine created_record fun t ht ↦ ?_
    by_cases hts : t=s
    · subst hts
      rw [isBoundAt_of ho, ← same.isBound]
      simpa [isBoundAt, Host.setSocket] using ht
    · simpa [isBoundAt, Host.setSocket, hts] using ht
  -- every open socket had, before, the same bound name
  have hold : ∀ t sock', (l.host.setSocket s (some next)).sockets t=some sock' →
      ∃ sock₀, l.host.sockets t=some sock₀ ∧ SameBound sock₀ sock' := by
    intro t sock' ht
    by_cases hts : t=s
    · subst hts
      simp only [Host.setSocket, Function.update_self, Option.some.injEq] at ht
      exact ⟨sock,ho,ht ▸ same⟩
    · exact ⟨sock',by simpa [Host.setSocket, hts] using ht,.refl _⟩
  refine {entries := ?_, closed := ?_, unborn := ?_, unbound := ?_, bound := ?_}
  · intro t sock' ht
    obtain ⟨sock₀,h₀,-⟩ := hold t sock' ht
    rw [hcr]
    exact h.entries t sock₀ h₀
  · intro t ht
    refine h.closed t ?_
    by_cases hts : t=s
    · simp [record, Host.setSocket, hts] at ht
    · simpa [record, Host.setSocket, hts] using ht
  · intro t ht
    obtain ⟨hnone,hcreated⟩ := h.unborn t ht
    rw [hcr]
    refine ⟨?_,hcreated⟩
    have hts : t≠s := by
      rintro rfl
      rw [ho] at hnone
      cases hnone
    simpa [record, Host.setSocket, hts] using hnone
  · intro t sock' ht hb
    obtain ⟨sock₀,h₀,hsame⟩ := hold t sock' ht
    rw [hcr]
    exact h.unbound t sock₀ h₀ (hsame.isBound.symm.trans hb)
  · intro t sock' ht hb
    obtain ⟨sock₀,h₀,hsame⟩ := hold t sock' ht
    rw [hcr, hsame.boundAddress]
    exact h.bound t sock₀ h₀ (hsame.isBound.symm.trans hb)

lemma Inv.opened (h : l.Inv) (p : ProtocolType) : (l.record (socketNew l.host p)).Inv := by
  have hsock : ∀ t, t≠l.host.nextSocket →
      (socketNew l.host p).sockets t=l.host.sockets t := by
    intro t ht
    simp [socketNew, Host.setSocket, ht]
  have hnew : (socketNew l.host p).sockets l.host.nextSocket=some (.new p) := by
    simp [socketNew, Host.setSocket]
  have hcr : (l.record (socketNew l.host p)).created = l.created := by
    refine created_record fun t ht ↦ ?_
    by_cases hts : t=l.host.nextSocket
    · rw [hts, isBoundAt_of hnew] at ht
      cases ht
    · simpa [isBoundAt, hsock t hts] using ht
  obtain ⟨hnone,hfresh⟩ := h.unborn l.host.nextSocket le_rfl
  refine {entries := ?_, closed := ?_, unborn := ?_, unbound := ?_, bound := ?_}
  · intro t sock ht i k
    rw [hcr]
    by_cases hts : t=l.host.nextSocket
    · subst hts
      exact iff_of_false (h.closed _ hnone i k) (hfresh i k)
    · exact h.entries t sock ((hsock t hts).symm.trans ht) i k
  · intro t ht
    by_cases hts : t=l.host.nextSocket
    · subst hts
      exact h.closed _ hnone
    · exact h.closed t ((hsock t hts).symm.trans ht)
  · intro t ht
    have hlt : l.host.nextSocket<t := ht
    obtain ⟨hn,hc⟩ := h.unborn t hlt.le
    rw [hcr]
    exact ⟨(hsock t (by omega)).trans hn,hc⟩
  · intro t sock ht hb
    rw [hcr]
    by_cases hts : t=l.host.nextSocket
    · subst hts
      exact hfresh
    · exact h.unbound t sock ((hsock t hts).symm.trans ht) hb
  · intro t sock ht hb
    rw [hcr]
    by_cases hts : t=l.host.nextSocket
    · subst hts
      rw [show (l.record (socketNew l.host p)).host.sockets l.host.nextSocket=some (.new p) from hnew]
        at ht
      cases ht
      cases hb
    · exact h.bound t sock ((hsock t hts).symm.trans ht) hb

/-- An unbound socket takes a port: its entries are the covered ones, and they were free. -/
lemma Inv.taken (h : l.Inv) {s : ℕ} {sock next : Socket} {addr q peerAddr peerPort : ℕ}
    (ho : l.host.sockets s=some sock) (hu : sock.isBound=false)
    (hi : doesInterfaceExist l.host addr=true)
    (ha : isInterfaceAvailable l.host sock.protocol addr q peerAddr peerPort=true)
    (same : SameBound (named sock addr q peerAddr peerPort) next) :
    (l.record ((Net.taken l.host s sock addr q peerAddr peerPort).setSocket s (some next))).Inv := by
  let h' := (Net.taken l.host s sock addr q peerAddr peerPort).setSocket s (some next)
  let key := socketToAssociationKey (named sock addr q peerAddr peerPort)
  have htable : ∀ i k, h'.boundSockets i k =
      if Covers l.host addr i ∧ k=key then some s else l.host.boundSockets i k := fun i k ↦ rfl
  have hfree : ∀ i, Covers l.host addr i → l.host.boundSockets i key=none := by
    intro i hc
    have := (isInterfaceAvailable_iff hi _ _ _ _).mp ha i hc
    simp only [key, key_named]
    split_ifs
    · exact this.1
    · exact this.2
  have hself : h'.sockets s=some next := by simp [h', Host.setSocket]
  have hother : ∀ t, t≠s → h'.sockets t=l.host.sockets t := by
    intro t ht
    simp [h', Host.setSocket, Net.taken, place, ht]
  have hbound : next.isBound=true := same.isBound
  have hnone : ∀ i k, l.host.boundSockets i k≠some s := by
    intro i k hk
    exact h.unbound s sock ho hu i k ((h.entries s sock ho i k).mp hk)
  have hmine : ∀ i k, h'.boundSockets i k=some s ↔ Covers l.host addr i ∧ k=key := by
    intro i k
    rw [htable]
    split_ifs with hc
    · exact iff_of_true rfl hc
    · exact iff_of_false (hnone i k) hc
  have htheirs : ∀ t, t≠s → ∀ i k, h'.boundSockets i k=some t ↔ l.host.boundSockets i k=some t := by
    intro t ht i k
    rw [htable]
    split_ifs with hc
    · rw [hc.2, hfree i hc.1]
      simp [Ne.symm ht]
    · exact Iff.rfl
  have hcs : ∀ i k, (l.record h').created s i k ↔ Covers l.host addr i ∧ k=key := by
    intro i k
    rw [← hmine i k]
    simp [record, isBoundAt_of ho, isBoundAt_of hself, hu, hbound]
  have hct : ∀ t, t≠s → (l.record h').created t=l.created t := by
    intro t ht
    have hb : isBoundAt h' t = isBoundAt l.host t := by simp [isBoundAt, hother t ht]
    simp [record, hb]
  refine {entries := ?_, closed := ?_, unborn := ?_, unbound := ?_, bound := ?_}
  · intro t sock' ht i k
    by_cases hts : t=s
    · subst hts
      rw [hcs]
      exact hmine i k
    · rw [hct t hts, ← h.entries t sock' ((hother t hts).symm.trans ht)]
      exact htheirs t hts i k
  · intro t ht i k hk
    by_cases hts : t=s
    · subst hts
      rw [show (l.record h').host.sockets t=some next from hself] at ht
      cases ht
    · exact h.closed t ((hother t hts).symm.trans ht) i k ((htheirs t hts i k).mp hk)
  · intro t ht
    obtain ⟨hn,hc⟩ := h.unborn t ht
    have hts : t≠s := by
      rintro rfl
      rw [ho] at hn
      cases hn
    exact ⟨(hother t hts).trans hn,by rw [hct t hts]; exact hc⟩
  · intro t sock' ht hb
    by_cases hts : t=s
    · subst hts
      rw [show (l.record h').host.sockets t=some next from hself] at ht
      cases ht
      rw [hbound] at hb
      cases hb
    · rw [hct t hts]
      exact h.unbound t sock' ((hother t hts).symm.trans ht) hb
  · intro t sock' ht hb
    by_cases hts : t=s
    · subst hts
      rw [show (l.record h').host.sockets t=some next from hself] at ht
      cases ht
      rw [same.boundAddress]
      exact ⟨hi,key,hcs⟩
    · rw [hct t hts]
      exact h.bound t sock' ((hother t hts).symm.trans ht) hb

lemma disassociateInterface_frame (h : Host) (sock : Socket) :
    (disassociateInterface h sock).sockets=h.sockets ∧
      (disassociateInterface h sock).nextSocket=h.nextSocket ∧
      (disassociateInterface h sock).defaultIP=h.defaultIP := by
  unfold disassociateInterface Host.interfaces
  split_ifs <;> exact ⟨rfl,rfl,rfl⟩

lemma Inv.disassociated (h : l.Inv) {s : ℕ} {sock : Socket} (ho : l.host.sockets s=some sock)
    (hb : sock.isBound=true) : disassociateInterface l.host sock =
      place l.host sock.getSocketAddress (socketToAssociationKey sock) none :=
  disassociateInterface_eq hb (getSocketAddress_exists (h.bound s sock ho hb).1)

lemma Inv.boundSockets_retraced (h : l.Inv) {s : ℕ} {sock : Socket}
    (ho : l.host.sockets s=some sock)
    (hr : sock.isBound → ∀ i k, l.created s i k ↔
      Covers l.host sock.getSocketAddress i ∧ k=socketToAssociationKey sock)
    (i : ℕ) (k : AssociationKey) :
    (disassociateInterface l.host sock).boundSockets i k =
      if l.created s i k then none else l.host.boundSockets i k := by
  cases hb : sock.isBound with
  | true =>
    rw [h.disassociated ho hb]
    exact if_congr (hr hb i k).symm rfl rfl
  | false =>
    rw [if_neg (h.unbound s sock ho hb i k)]
    simp [disassociateInterface, hb]

lemma Inv.close (h : l.Inv) {s : ℕ} {sock : Socket} (ho : l.host.sockets s=some sock)
    (hr : sock.isBound → ∀ i k, l.created s i k ↔
      Covers l.host sock.getSocketAddress i ∧ k=socketToAssociationKey sock) :
    (l.record ((disassociateInterface l.host sock).setSocket s none)).Inv := by
  let h' := (disassociateInterface l.host sock).setSocket s none
  have hframe := disassociateInterface_frame l.host sock
  have hcovers : ∀ addr i, Covers h' addr i ↔ Covers l.host addr i := by
    intro addr i
    simp [Covers, mem_interfaces, h', Host.setSocket, hframe.2.2]
  have hexists : ∀ addr, doesInterfaceExist h' addr = doesInterfaceExist l.host addr := by
    intro addr
    simp [doesInterfaceExist, Host.interfaces, h', Host.setSocket, hframe.2.2]
  have hself : h'.sockets s=none := by simp [h', Host.setSocket]
  have hother : ∀ t, t≠s → h'.sockets t=l.host.sockets t := by
    intro t ht
    simp [h', Host.setSocket, hframe.1, ht]
  have hopen : ∀ t sock', h'.sockets t=some sock' → t≠s ∧ l.host.sockets t=some sock' := by
    intro t sock' ht
    have hts : t≠s := by
      rintro rfl
      rw [hself] at ht
      cases ht
    exact ⟨hts,(hother t hts).symm.trans ht⟩
  have hcr : (l.record h').created = l.created := by
    refine created_record fun t ht ↦ ?_
    obtain ⟨sock',hs',hb'⟩ := isBoundAt_iff.mp ht
    rw [isBoundAt_of (hopen t sock' hs').2]
    exact hb'
  have htable : ∀ i k, h'.boundSockets i k =
      if l.created s i k then none else l.host.boundSockets i k := h.boundSockets_retraced ho hr
  refine {entries := ?_, closed := ?_, unborn := ?_, unbound := ?_, bound := ?_}
  · intro t sock' ht i k
    obtain ⟨hts,ht'⟩ := hopen t sock' ht
    rw [hcr, ← h.entries t sock' ht']
    rw [show (l.record h').host.boundSockets i k = _ from htable i k]
    split_ifs with hc
    · rw [(h.entries s sock ho i k).mpr hc]
      simp [Ne.symm hts]
    · exact Iff.rfl
  · intro t ht i k hk
    rw [show (l.record h').host.boundSockets i k = _ from htable i k] at hk
    split_ifs at hk with hc
    by_cases hts : t=s
    · subst hts
      exact hc ((h.entries t sock ho i k).mp hk)
    · exact h.closed t ((hother t hts).symm.trans ht) i k hk
  · intro t ht
    have ht' : l.host.nextSocket ≤ t := hframe.2.1 ▸ ht
    obtain ⟨hn,hc⟩ := h.unborn t ht'
    rw [hcr]
    refine ⟨?_,hc⟩
    by_cases hts : t=s
    · rw [hts]
      exact hself
    · exact (hother t hts).trans hn
  · intro t sock' ht hb
    rw [hcr]
    exact h.unbound t sock' (hopen t sock' ht).2 hb
  · intro t sock' ht hb
    rw [hcr]
    obtain ⟨hi,k,hk⟩ := h.bound t sock' (hopen t sock' ht).2 hb
    refine ⟨(hexists _).trans hi,k,fun i k' ↦ ?_⟩
    rw [hk i k', show Covers (l.record h').host sock'.boundAddress i ↔ _ from hcovers _ i]

lemma effect_closes {h h' : Host} {P : Prop} (he : Effect h h' P) {s : ℕ} {sock : Socket}
    (ho : h.sockets s=some sock) (hn : h'.sockets s=none) :
    h'=(disassociateInterface h sock).setSocket s none := by
  cases he with
  | stay => simp [ho] at hn
  | opened p =>
    simp only [socketNew, Host.setSocket, Function.update_apply] at hn
    split_ifs at hn
    simp [ho] at hn
  | taken t sock' next addr q peerAddr peerPort ho' hu hi ha hany same peer =>
    simp only [Host.setSocket, Net.taken, place, Function.update_apply] at hn
    split_ifs at hn
    simp [ho] at hn
  | kept t sock' next ho' same peer =>
    simp only [Host.setSocket, Function.update_apply] at hn
    split_ifs at hn
    simp [ho] at hn
  | renamed t sock' next ho' hb same =>
    simp only [Host.setSocket, Function.update_apply] at hn
    split_ifs at hn
    simp [ho] at hn
  | closed t sock' ho' =>
    have hts : s=t := by
      by_contra hts
      simp [Host.setSocket, hts, (disassociateInterface_frame h sock').1, ho] at hn
    subst hts
    rw [ho] at ho'
    rw [Option.some.inj ho']

/-- Every effect keeps the invariant, a close where it retraces the bind. -/
lemma Inv.effect (h : l.Inv) {h' : Host} {P : Prop} (he : Effect l.host h' P)
    (hr : ∀ s sock, l.host.sockets s=some sock → h'.sockets s=none → sock.isBound → ∀ i k,
      l.created s i k ↔ Covers l.host sock.getSocketAddress i ∧ k=socketToAssociationKey sock) :
    (l.record h').Inv := by
  cases he with
  | stay =>
    have hself : l.record l.host=l := by simp [record]
    rw [hself]
    exact h
  | opened p => exact h.opened p
  | taken s sock next addr q peerAddr peerPort ho hu hi ha hany same peer =>
    exact h.taken ho hu hi ha same
  | kept s sock next ho same peer => exact h.rename ho same
  | renamed s sock next ho hb same => exact h.rename ho same
  | closed s sock ho => exact h.close ho (hr s sock ho (by simp [Host.setSocket]))

lemma Inv.exec (h : l.Inv) {c : Call} (hr : l.Retraces c) : (l.exec c).Inv ∧ l.Frees c := by
  obtain ⟨P,he,-,-⟩ := hasEffect l.host c
  have hinv := h.effect he fun s sock ho hn ↦ hr s sock ⟨ho,hn⟩
  refine ⟨hinv,fun s sock hcl i k hk hassoc ↦ ?_⟩
  have hnone : (Net.exec l.host c).boundSockets i k=none := by
    rw [effect_closes he hcl.1 hcl.2]
    exact (h.boundSockets_retraced hcl.1 (hr s sock hcl) i k).trans (if_pos hk)
  simp only [isAssociated, Bool.or_eq_true] at hassoc
  rcases hassoc with hgen | hspec
  · obtain ⟨t,ht⟩ := Option.isSome_iff_exists.mp hgen
    refine ⟨t,?_,ht⟩
    rintro rfl
    exact hinv.closed t hcl.2 i _ ht
  · rw [show (Net.exec l.host c).boundSockets i ⟨k.protocol,k.port,k.peerAddr,k.peerPort⟩ = none
      from hnone] at hspec
    cases hspec

/-- If the next state is exact, the sockets closed on the way retraced their binds. -/
lemma Inv.retraces (h : l.Inv) {c : Call} (hnext : (l.exec c).Exact) : l.Retraces c := by
  intro s sock hcl hb
  obtain ⟨P,he,-,-⟩ := hasEffect l.host c
  have hgone := hnext.closed s hcl.2
  simp only [Ledger.exec, record] at hgone
  rw [effect_closes he hcl.1 hcl.2] at hgone
  have htable : ∀ i k, (if Covers l.host sock.getSocketAddress i ∧ k=socketToAssociationKey sock
      then none else l.host.boundSockets i k)≠some s := by
    simp only [Host.setSocket, h.disassociated hcl.1 hb] at hgone
    exact hgone
  have hforth : ∀ i k, l.created s i k →
      Covers l.host sock.getSocketAddress i ∧ k=socketToAssociationKey sock := by
    intro i k hk
    by_contra hne
    apply htable i k
    rw [if_neg hne]
    exact (h.entries s sock hcl.1 i k).mpr hk
  obtain ⟨hi,key,hkey⟩ := h.bound s sock hcl.1 hb
  obtain ⟨j,hj⟩ := exists_covers hi
  have hk := (hforth j key ((hkey j key).mpr ⟨hj,rfl⟩)).2
  refine fun i k ↦ ⟨hforth i k,?_⟩
  rintro ⟨hc,rfl⟩
  refine (hkey i _).mpr ⟨?_,hk.symm⟩
  unfold Socket.getSocketAddress at hc
  split_ifs at hc with hany
  · exact ⟨hc.1,.inl hany.1⟩
  · exact hc

/-- In every run from a fresh host the associations of each socket last from its bind to its close
exactly when every close finds the names of the bind. -/
theorem exact_iff_retraces (ip : ℕ) (hip : ip≠inaddrAny) (routable : ℕ → Bool) (cs : List Call) :
    (new ip hip routable).ExactAlong cs ↔ (new ip hip routable).RetracesAlong cs := by
  have h := Inv.new ip hip routable
  generalize new ip hip routable = l at h
  induction cs generalizing l with
  | nil => exact iff_of_true h.toExact trivial
  | cons c cs ih =>
    constructor
    · rintro ⟨-,-,hrest⟩
      have hr : l.Retraces c := by
        refine h.retraces ?_
        cases cs with
        | nil => exact hrest
        | cons c' cs => exact hrest.1
      exact ⟨hr,(ih _ (h.exec hr).1).mp hrest⟩
    · rintro ⟨hr,hrest⟩
      exact ⟨h.toExact,(h.exec hr).2,(ih _ (h.exec hr).1).mpr hrest⟩

end

/-- A datagram socket of 11.0.0.1 on port 5000. -/
def boundCalls : List Call := [.socket .udp,.bind 0 inaddrAny (htons 5000) fun _ ↦ ⟨0,by decide⟩]

/-- Between its bind and its close the socket is connected to port 53 of 11.0.0.2. -/
def connectedCalls : List Call :=
  boundCalls++[.connect 0 .inet 33554443 (htons 53) (fun _ ↦ ⟨0,by decide⟩),.close 0]

/-- The close finds the name that the bind gave the socket. -/
lemma retracesAlong_bound :
    (new 16777227 (by decide) fun _ ↦ true).RetracesAlong (boundCalls++[.close 0]) := by
  have h₀ := Inv.new 16777227 (by decide) fun _ ↦ true
  have hr₁ : (new 16777227 (by decide) fun _ ↦ true).Retraces (.socket .udp) := by
    rintro s sock ⟨hs,-⟩
    cases hs
  have h₁ := (h₀.exec hr₁).1
  have hr₂ : ((new 16777227 (by decide) fun _ ↦ true).exec (.socket .udp)).Retraces
      (.bind 0 inaddrAny (htons 5000) fun _ ↦ ⟨0,by decide⟩) := by
    rintro s sock ⟨hs,hn⟩
    rcases Nat.eq_zero_or_pos s with rfl | hpos
    · cases hn
    · exact absurd ((h₁.unborn s hpos).1.symm.trans hs) (by simp)
  have h₂ := (h₁.exec hr₂).1
  refine ⟨hr₁,hr₂,?_,trivial⟩
  rintro s sock ⟨hs,-⟩ hb i k
  rcases Nat.eq_zero_or_pos s with rfl | hpos
  · obtain ⟨-,key,hkey⟩ := h₂.bound 0 sock hs hb
    have hentry := (hkey 16777227 ⟨.udp,htons 5000,0,0⟩).mp (by decide)
    cases hs
    rw [hkey,← hentry.2]
    exact Iff.rfl
  · exact absurd ((h₂.unborn s hpos).1.symm.trans hs) (by simp)

/-- In that run the entries last from the bind to the close. -/
theorem exact_iff_retraces_bound :
    (new 16777227 (by decide) fun _ ↦ true).ExactAlong (boundCalls++[.close 0]) :=
  (exact_iff_retraces 16777227 (by decide) (fun _ ↦ true) _).mpr retracesAlong_bound

/-- The closed socket keeps its entries, and its port is never available again. -/
theorem connected_socket_stays_associated :
    ¬(new 16777227 (by decide) fun _ ↦ true).ExactAlong connectedCalls ∧
      isInterfaceAvailable (run (.new 16777227 (by decide) fun _ ↦ true) connectedCalls) .udp
        inaddrAny (htons 5000) 0 0=false := by
  refine ⟨?_,by decide⟩
  rintro ⟨-,-,-,-,-,-,-,-,hlast⟩
  exact hlast.closed 0 (by rfl) 16777227 ⟨.udp,htons 5000,0,0⟩ (by rfl)

end Ledger

end Net
end Phantom
