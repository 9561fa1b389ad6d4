import Phantom.Routing.Dns

/-! Registrations of addresses with the DNS: the addresses are unique and unrestricted, and the tables
agree. -/
namespace Phantom
namespace Routing

/-- An address shares the leading bits of a network. -/
def InNetwork (ip : InAddr) (cidr : Cidr) : Prop :=
  SamePrefix cidr.cidrBits (htonl ip) (htonl cidr.subnetIP)

/-- No reserved network has the address. -/
def Unrestricted (ip : InAddr) : Prop := ∀ cidr ∈ restrictedNetworks, ¬InNetwork ip cidr

lemma netmask_eq : ∀ bits<33, netmask bits=BitVec.allOnes 32 <<< (32-bits) := by decide +kernel

lemma isIPInRange_iff {ip : InAddr} {cidr : Cidr} (h : cidr.cidrBits ≤ 32) :
    isIPInRange ip cidr=true ↔ InNetwork ip cidr := by
  unfold isIPInRange InNetwork
  rw [beq_iff_eq,netmask_eq _ (Nat.lt_succ_of_le h),← and_mask_eq_iff h,← swapOctets_inj,
    swapOctets_and,swapOctets_and]
  unfold htonl
  rw [swapOctets_swapOctets]

lemma isRestricted_eq_false_iff {ip : InAddr} : isRestricted ip=false ↔ Unrestricted ip := by
  have hbits : ∀ cidr ∈ restrictedNetworks, cidr.cidrBits ≤ 32 := by decide
  unfold isRestricted Unrestricted
  rw [List.any_eq_false]
  exact forall₂_congr fun cidr hcidr ↦ not_congr (isIPInRange_iff (hbits cidr hcidr))

namespace Dns

variable {dns dns' : Dns} {ip : InAddr} {n k : ℕ}

/-- The tables of two states are the same. -/
structure SameTables (dns dns' : Dns) : Prop where
  byIP : dns'.addressByIP=dns.addressByIP
  byName : dns'.addressByName=dns.addressByName

/-- An address that is neither restricted nor in the table. -/
def Free (dns : Dns) (ip : InAddr) : Prop := isRestricted ip=false ∧ dns.addressByIP ip=none

lemma taken_eq_false_iff : (isRestricted ip || !dns.isIPUnique ip)=false ↔ dns.Free ip := by
  simp [Free,isIPUnique]

lemma generate_some (h : dns.generate n=some (ip,dns')) : dns.Free ip ∧ SameTables dns dns' := by
  induction n generalizing dns with
  | zero => cases h
  | succ n ih =>
    rw [generate] at h
    dsimp only at h
    split_ifs at h with htaken
    · obtain ⟨hfree,htables⟩ := ih h
      exact ⟨hfree,htables.byIP,htables.byName⟩
    · cases h
      rw [Bool.not_eq_true,taken_eq_false_iff] at htaken
      exact ⟨htaken,rfl,rfl⟩

lemma generate_isSome (hk : k<n) (hfree : dns.Free (htonl (dns.ipAddressCounter+BitVec.ofNat 32 (k+1)))) :
    (dns.generate n).isSome=true := by
  induction n generalizing dns k with
  | zero => omega
  | succ n ih =>
    rw [generate]
    dsimp only
    split_ifs with htaken
    · cases k with
      | zero =>
        refine absurd htaken ?_
        rw [Bool.not_eq_true,taken_eq_false_iff]
        exact hfree
      | succ k =>
        refine ih (k := k) (by omega) ?_
        have hcounter : dns.ipAddressCounter+1+BitVec.ofNat 32 (k+1)=
            dns.ipAddressCounter+BitVec.ofNat 32 (k+1+1) := by
          rw [BitVec.ofNat_add (k+1) 1,BitVec.add_assoc,BitVec.add_comm 1]
          rfl
        rw [hcounter]
        exact hfree
    · rfl

lemma generateIP_isSome (hfree : dns.Free ip) : dns.generateIP.isSome=true := by
  have hk := (htonl ip-dns.ipAddressCounter-1).isLt
  refine generate_isSome hk ?_
  have hcounter : dns.ipAddressCounter+
      BitVec.ofNat 32 ((htonl ip-dns.ipAddressCounter-1).toNat+1)=htonl ip := by
    rw [BitVec.ofNat_add,BitVec.ofNat_toNat,BitVec.setWidth_eq]
    change dns.ipAddressCounter+(htonl ip-dns.ipAddressCounter-1+1)=htonl ip
    rw [BitVec.sub_add_cancel,BitVec.add_comm,BitVec.sub_add_cancel]
  rw [hcounter]
  unfold htonl
  rw [swapOctets_swapOctets]
  exact hfree

lemma chooseIP_some {requestedIP : Option InAddr} {isLocal : Bool}
    (h : dns.chooseIP requestedIP=some (ip,isLocal,dns')) : SameTables dns dns' ∧
      (isLocal=true ∧ ip=localhost ∨
        isLocal=false ∧ requestedIP ≠ some localhost ∧ dns.Free ip) := by
  have hgenerate : dns.generateIP.map (fun new ↦ (new.1,false,new.2))=some (ip,isLocal,dns') →
      SameTables dns dns' ∧ isLocal=false ∧ dns.Free ip := by
    intro h
    obtain ⟨⟨ip',dns''⟩,hgen,heq⟩ := Option.map_eq_some_iff.mp h
    cases heq
    obtain ⟨hfree,htables⟩ := generate_some hgen
    exact ⟨htables,rfl,hfree⟩
  cases requestedIP with
  | none =>
    obtain ⟨htables,hlocal,hfree⟩ := hgenerate h
    exact ⟨htables,.inr ⟨hlocal,by simp,hfree⟩⟩
  | some req =>
    unfold chooseIP at h
    dsimp only at h
    split_ifs at h with hreq htaken
    · cases h
      exact ⟨⟨rfl,rfl⟩,.inl ⟨rfl,hreq⟩⟩
    · obtain ⟨htables,hlocal,hfree⟩ := hgenerate h
      exact ⟨htables,.inr ⟨hlocal,by simpa using hreq,hfree⟩⟩
    · cases h
      rw [Bool.not_eq_true,taken_eq_false_iff] at htaken
      exact ⟨⟨rfl,rfl⟩,.inr ⟨rfl,by simpa using hreq,htaken⟩⟩

lemma register_requested {id : ℕ} {name : String} (hne : ip ≠ localhost) (hfree : dns.Free ip) :
    dns.register id name (some ip)=
      some (⟨id,(dns.macAddressCounter+1)%2^32,ip,name,false⟩,
        {dns with macAddressCounter := (dns.macAddressCounter+1)%2^32}.store
          ⟨id,(dns.macAddressCounter+1)%2^32,ip,name,false⟩) := by
  have htaken := taken_eq_false_iff.mpr hfree
  have hchoose : {dns with macAddressCounter := (dns.macAddressCounter+1)%2^32}.chooseIP (some ip)=
      some (ip,false,{dns with macAddressCounter := (dns.macAddressCounter+1)%2^32}) := by
    unfold chooseIP
    dsimp only
    rw [if_neg hne]
    exact if_neg (by simpa [isIPUnique] using htaken)
  exact congrArg (Option.map _) hchoose

lemma chooseIP_isSome {requestedIP : Option InAddr} (hfree : dns.Free ip) :
    (dns.chooseIP requestedIP).isSome=true := by
  have hgen := generateIP_isSome hfree
  unfold chooseIP
  split
  · rwa [Option.isSome_map]
  · split_ifs
    · rfl
    · rwa [Option.isSome_map]
    · rfl

end Dns

/-- The DNS with the addresses that are registered and the names that were registered for addresses in
its tables. -/
structure Registry where
  dns : Dns
  registered : List Address
  names : List String

namespace Registry

/-- Registrations, with a new name for each address that is not local, and deregistrations of registered
addresses. -/
inductive Run : Registry → Prop
  | new : Run ⟨.new,[],[]⟩
  | register {r id name requestedIP address dns} (h : Run r)
      (hname : requestedIP=some localhost ∨ name ∉ r.names)
      (hreg : r.dns.register id name requestedIP=some (address,dns)) :
      Run ⟨dns,address::r.registered,if address.isLocal then r.names else name::r.names⟩
  | deregister {r address} (h : Run r) (hmem : address ∈ r.registered) :
      Run ⟨r.dns.deregister address,r.registered.erase address,r.names⟩

/-- Both tables hold exactly the registered addresses that are not local. -/
structure Inv (r : Registry) : Prop where
  byIP : ∀ ip address, r.dns.addressByIP ip=some address ↔
    address ∈ r.registered ∧ address.isLocal=false ∧ address.ip=ip
  byName : ∀ name address, r.dns.addressByName name=some address ↔
    address ∈ r.registered ∧ address.isLocal=false ∧ address.name=name
  unrestricted : ∀ address ∈ r.registered, address.isLocal=false → Unrestricted address.ip
  isLocal : ∀ address ∈ r.registered, address.isLocal=true → address.ip=localhost
  names : ∀ address ∈ r.registered, address.isLocal=false → address.name ∈ r.names
  once : (r.registered.filter fun address ↦ !address.isLocal).Pairwise fun a b ↦ a.ip ≠ b.ip

variable {r : Registry} {id : ℕ} {name : String} {requestedIP : Option InAddr} {address : Address}
  {dns : Dns} {ip : InAddr}

/-- A registration returns a local address and leaves the tables, or it stores a free one. -/
lemma register_some (h : r.dns.register id name requestedIP=some (address,dns)) :
    address.name=name ∧
    ((address.isLocal=true ∧ address.ip=localhost ∧ dns.addressByIP=r.dns.addressByIP ∧
        dns.addressByName=r.dns.addressByName) ∨
      address.isLocal=false ∧ requestedIP ≠ some localhost ∧ r.dns.Free address.ip ∧
        dns.addressByIP=Function.update r.dns.addressByIP address.ip (some address) ∧
        dns.addressByName=Function.update r.dns.addressByName name (some address)) := by
  obtain ⟨⟨ip,isLocal,dns'⟩,hchoose,heq⟩ := Option.map_eq_some_iff.mp h
  obtain ⟨htables,⟨rfl,rfl⟩ | ⟨rfl,hreq,hfree⟩⟩ := Dns.chooseIP_some hchoose
  · cases heq
    exact ⟨rfl,.inl ⟨rfl,rfl,htables.byIP,htables.byName⟩⟩
  · cases heq
    refine ⟨rfl,.inr ⟨rfl,hreq,hfree,?_,?_⟩⟩
    · exact congrArg (Function.update · _ _) htables.byIP
    · exact congrArg (Function.update · _ _) htables.byName

lemma register_isSome (hfree : r.dns.Free ip) : (r.dns.register id name requestedIP).isSome=true := by
  unfold Dns.register
  rw [Option.isSome_map]
  exact Dns.chooseIP_isSome hfree

lemma localhost_restricted : ¬Unrestricted localhost := by
  rw [← isRestricted_eq_false_iff]
  decide +kernel

lemma Inv.new : Inv ⟨.new,[],[]⟩ where
  byIP _ _ := by simp [Dns.new]
  byName _ _ := by simp [Dns.new]
  unrestricted _ h := nomatch h
  isLocal _ h := nomatch h
  names _ h := nomatch h
  once := .nil

section
variable (h : r.Inv)
include h

lemma Inv.ip_ne {a : Address} (hnone : r.dns.addressByIP ip=none) (ha : a ∈ r.registered)
    (hlocal : a.isLocal=false) : a.ip ≠ ip := by
  intro heq
  rw [(h.byIP ip a).mpr ⟨ha,hlocal,heq⟩] at hnone
  cases hnone

lemma Inv.registerLocal (hlocal : address.isLocal=true) (hip : address.ip=localhost)
    (hbyIP : dns.addressByIP=r.dns.addressByIP) (hbyName : dns.addressByName=r.dns.addressByName) :
    Inv ⟨dns,address::r.registered,r.names⟩ := by
  have hmem : ∀ a : Address, a.isLocal=false → (a ∈ address::r.registered ↔ a ∈ r.registered) := by
    intro a ha
    refine List.mem_cons.trans (or_iff_right ?_)
    rintro rfl
    simp [hlocal] at ha
  constructor
  · intro ip a
    rw [hbyIP,h.byIP]
    exact ⟨fun ⟨hm,hl,heq⟩ ↦ ⟨(hmem a hl).mpr hm,hl,heq⟩,
      fun ⟨hm,hl,heq⟩ ↦ ⟨(hmem a hl).mp hm,hl,heq⟩⟩
  · intro name a
    rw [hbyName,h.byName]
    exact ⟨fun ⟨hm,hl,heq⟩ ↦ ⟨(hmem a hl).mpr hm,hl,heq⟩,
      fun ⟨hm,hl,heq⟩ ↦ ⟨(hmem a hl).mp hm,hl,heq⟩⟩
  · exact fun a ha hl ↦ h.unrestricted a ((hmem a hl).mp ha) hl
  · intro a ha hl
    obtain rfl | ha := List.mem_cons.mp ha
    · exact hip
    · exact h.isLocal a ha hl
  · exact fun a ha hl ↦ h.names a ((hmem a hl).mp ha) hl
  · rw [List.filter_cons_of_neg (by simp [hlocal])]
    exact h.once

lemma Inv.registerFree (hlocal : address.isLocal=false) (hname : address.name ∉ r.names)
    (hfree : r.dns.Free address.ip)
    (hbyIP : dns.addressByIP=Function.update r.dns.addressByIP address.ip (some address))
    (hbyName : dns.addressByName=Function.update r.dns.addressByName address.name (some address)) :
    Inv ⟨dns,address::r.registered,address.name::r.names⟩ := by
  constructor
  · intro ip a
    dsimp only
    rw [hbyIP,List.mem_cons]
    by_cases hip : ip=address.ip
    · rw [hip,Function.update_self,Option.some_inj]
      constructor
      · rintro rfl
        exact ⟨.inl rfl,hlocal,rfl⟩
      · rintro ⟨rfl | ha,hl,heq⟩
        · rfl
        · exact absurd heq (h.ip_ne hfree.2 ha hl)
    · rw [Function.update_of_ne hip,h.byIP]
      refine and_congr_left fun ⟨hl,heq⟩ ↦ (or_iff_right ?_).symm
      rintro rfl
      exact hip heq.symm
  · intro name a
    dsimp only
    rw [hbyName,List.mem_cons]
    by_cases hn : name=address.name
    · rw [hn,Function.update_self,Option.some_inj]
      constructor
      · rintro rfl
        exact ⟨.inl rfl,hlocal,rfl⟩
      · rintro ⟨rfl | ha,hl,heq⟩
        · rfl
        · exact absurd (heq ▸ h.names a ha hl) hname
    · rw [Function.update_of_ne hn,h.byName]
      refine and_congr_left fun ⟨hl,heq⟩ ↦ (or_iff_right ?_).symm
      rintro rfl
      exact hn heq.symm
  · intro a ha hl
    obtain rfl | ha := List.mem_cons.mp ha
    · exact isRestricted_eq_false_iff.mp hfree.1
    · exact h.unrestricted a ha hl
  · intro a ha hl
    obtain rfl | ha := List.mem_cons.mp ha
    · simp [hlocal] at hl
    · exact h.isLocal a ha hl
  · intro a ha hl
    obtain rfl | ha := List.mem_cons.mp ha
    · exact List.mem_cons_self
    · exact List.mem_cons_of_mem _ (h.names a ha hl)
  · rw [List.filter_cons_of_pos (by simp [hlocal]),List.pairwise_cons]
    refine ⟨fun a ha ↦ ?_,h.once⟩
    obtain ⟨ha,hl⟩ := List.mem_filter.mp ha
    exact (h.ip_ne hfree.2 ha (by simpa using hl)).symm

lemma Inv.register (hname : requestedIP=some localhost ∨ name ∉ r.names)
    (hreg : r.dns.register id name requestedIP=some (address,dns)) :
    Inv ⟨dns,address::r.registered,if address.isLocal then r.names else name::r.names⟩ := by
  obtain ⟨rfl,⟨hlocal,hip,hbyIP,hbyName⟩ | ⟨hlocal,hreq,hfree,hbyIP,hbyName⟩⟩ := register_some hreg
  · rw [if_pos hlocal]
    exact h.registerLocal hlocal hip hbyIP hbyName
  · rw [if_neg (by simp [hlocal])]
    exact h.registerFree hlocal (hname.resolve_left hreq) hfree hbyIP hbyName

lemma Inv.mem_erase {a : Address} (hl : a.isLocal=false) :
    a ∈ r.registered.erase address ↔ a ≠ address ∧ a ∈ r.registered := by
  by_cases heq : a=address
  · refine iff_of_false (fun ha ↦ ?_) fun hne ↦ hne.1 heq
    subst heq
    have hnodup : (r.registered.filter fun address ↦ !address.isLocal).Nodup :=
      h.once.imp fun hne heq ↦ hne (congrArg Address.ip heq)
    refine hnodup.not_mem_erase (a := a) ?_
    rw [List.erase_filter]
    exact List.mem_filter.mpr ⟨ha,by simp [hl]⟩
  · rw [List.mem_erase_of_ne heq]
    exact (and_iff_right heq).symm

lemma Inv.once_erase :
    ((r.registered.erase address).filter fun address ↦ !address.isLocal).Pairwise
      fun a b ↦ a.ip ≠ b.ip := by
  rw [← List.erase_filter]
  exact h.once.sublist List.erase_sublist

lemma Inv.deregister (hmem : address ∈ r.registered) :
    Inv ⟨r.dns.deregister address,r.registered.erase address,r.names⟩ := by
  have hsub : ∀ a ∈ r.registered.erase address, a ∈ r.registered := fun a ↦ List.mem_of_mem_erase
  unfold Dns.deregister
  split_ifs with hlocal
  · have hne : ∀ a : Address, a.isLocal=false → a ≠ address := by
      rintro a hl rfl
      simp [hlocal] at hl
    refine ⟨fun ip a ↦ ?_,fun name a ↦ ?_,fun a ha ↦ h.unrestricted a (hsub a ha),
      fun a ha ↦ h.isLocal a (hsub a ha),fun a ha ↦ h.names a (hsub a ha),h.once_erase⟩
    · rw [h.byIP]
      refine and_congr_left fun ⟨hl,_⟩ ↦ ?_
      rw [h.mem_erase hl,and_iff_right (hne a hl)]
    · rw [h.byName]
      refine and_congr_left fun ⟨hl,_⟩ ↦ ?_
      rw [h.mem_erase hl,and_iff_right (hne a hl)]
  · rw [Bool.not_eq_true] at hlocal
    refine ⟨fun ip a ↦ ?_,fun name a ↦ ?_,fun a ha ↦ h.unrestricted a (hsub a ha),
      fun a ha ↦ h.isLocal a (hsub a ha),fun a ha ↦ h.names a (hsub a ha),h.once_erase⟩
    · dsimp only
      have hself := (h.byIP address.ip address).mpr ⟨hmem,hlocal,rfl⟩
      by_cases hip : ip=address.ip
      · rw [hip,Function.update_self]
        refine iff_of_false (by simp) ?_
        rintro ⟨ha,hl,heq⟩
        obtain ⟨hne,ha⟩ := (h.mem_erase hl).mp ha
        rw [(h.byIP address.ip a).mpr ⟨ha,hl,heq⟩] at hself
        exact hne (Option.some.inj hself)
      · rw [Function.update_of_ne hip,h.byIP]
        refine and_congr_left fun ⟨hl,heq⟩ ↦ ?_
        rw [h.mem_erase hl,and_iff_right]
        rintro rfl
        exact hip heq.symm
    · dsimp only
      have hself := (h.byName address.name address).mpr ⟨hmem,hlocal,rfl⟩
      by_cases hn : name=address.name
      · rw [hn,Function.update_self]
        refine iff_of_false (by simp) ?_
        rintro ⟨ha,hl,heq⟩
        obtain ⟨hne,ha⟩ := (h.mem_erase hl).mp ha
        rw [(h.byName address.name a).mpr ⟨ha,hl,heq⟩] at hself
        exact hne (Option.some.inj hself)
      · rw [Function.update_of_ne hn,h.byName]
        refine and_congr_left fun ⟨hl,heq⟩ ↦ ?_
        rw [h.mem_erase hl,and_iff_right]
        rintro rfl
        exact hn heq.symm

end

theorem Run.inv (h : r.Run) : r.Inv := by
  induction h with
  | new => exact .new
  | register h hname hreg ih => exact ih.register hname hreg
  | deregister h hmem ih => exact ih.deregister hmem

/-- In every run, no two registered addresses other than 127.0.0.1 share an IP, generated addresses are
in no reserved network, both tables hold the registered addresses and lose those that are deregistered,
and a registration returns as long as there is an unrestricted address that is not used. -/
theorem dns_unique (h : r.Run) :
    (r.registered.filter fun address ↦ address.ip ≠ localhost).Pairwise (fun a b ↦ a.ip ≠ b.ip) ∧
    (∀ ip dns, r.dns.generateIP=some (ip,dns) → Unrestricted ip) ∧
    (∀ address, (∃ ip, r.dns.resolveIPToAddress ip=some address) ↔
      ∃ name, r.dns.resolveNameToAddress name=some address) ∧
    (∀ address ∈ r.registered, address.ip ≠ localhost →
      r.dns.resolveIPToAddress address.ip=some address ∧
      r.dns.resolveNameToAddress address.name=some address ∧
      (r.dns.deregister address).resolveIPToAddress address.ip=none ∧
      (r.dns.deregister address).resolveNameToAddress address.name=none) ∧
    ∀ ip, Unrestricted ip → (∀ address ∈ r.registered, address.ip ≠ ip) →
      r.dns.generateIP.isSome=true ∧
        ∀ id name requestedIP, (r.dns.register id name requestedIP).isSome=true := by
  have hinv := h.inv
  have hlocal : ∀ address ∈ r.registered, address.isLocal=false ↔ address.ip ≠ localhost := by
    intro address hmem
    constructor
    · intro hl heq
      exact localhost_restricted (heq ▸ hinv.unrestricted address hmem hl)
    · intro hne
      by_contra hl
      exact hne (hinv.isLocal address hmem (by simpa using hl))
  refine ⟨?_,fun ip dns hgen ↦ ?_,fun address ↦ ?_,fun address hmem hne ↦ ?_,fun ip hip hunused ↦ ?_⟩
  · have hfilter : r.registered.filter (fun address ↦ address.ip ≠ localhost)=
        r.registered.filter fun address ↦ !address.isLocal := by
      refine List.filter_congr fun address hmem ↦ ?_
      cases hl : address.isLocal with
      | false => exact decide_eq_true ((hlocal address hmem).mp hl)
      | true =>
        refine decide_eq_false fun hne ↦ ?_
        rw [(hlocal address hmem).mpr hne] at hl
        cases hl
    rw [hfilter]
    exact hinv.once
  · exact isRestricted_eq_false_iff.mp (Dns.generate_some hgen).1.1
  · unfold Dns.resolveIPToAddress Dns.resolveNameToAddress
    simp only [hinv.byIP,hinv.byName]
    simp
  · have hl := (hlocal address hmem).mpr hne
    refine ⟨(hinv.byIP _ _).mpr ⟨hmem,hl,rfl⟩,(hinv.byName _ _).mpr ⟨hmem,hl,rfl⟩,?_,?_⟩
    · simp [Dns.deregister,Dns.resolveIPToAddress,hl]
    · simp [Dns.deregister,Dns.resolveNameToAddress,hl]
  · have hfree : r.dns.Free ip := by
      refine ⟨isRestricted_eq_false_iff.mpr hip,?_⟩
      rw [Option.eq_none_iff_forall_ne_some]
      intro address haddress
      obtain ⟨hmem,-,heq⟩ := (hinv.byIP ip address).mp haddress
      exact hunused address hmem heq
    exact ⟨Dns.generateIP_isSome hfree,fun id name requestedIP ↦ register_isSome hfree⟩

/-- The addresses of one host: its loopback address and the one that it requests. -/
theorem dns_unique_host :
    ∃ dns, Run ⟨dns,[⟨0,2,.ofOctets 11 0 0 5,"host",false⟩,⟨0,1,localhost,"host",true⟩],["host"]⟩ ∧
      dns.resolveIPToAddress (.ofOctets 11 0 0 5)=dns.resolveNameToAddress "host" ∧
      (dns.resolveNameToAddress "host").isSome=true := by
  let dns : Dns := {Dns.new with macAddressCounter := 1}
  have hlocal : Run ⟨dns,[⟨0,1,localhost,"host",true⟩],[]⟩ :=
    @Run.register _ 0 "host" (some localhost) _ _ .new (.inl rfl) rfl
  have hreg := @Dns.register_requested dns (.ofOctets 11 0 0 5) 0 "host" (by decide)
    ⟨by decide +kernel,rfl⟩
  have hrun : Run ⟨_,[⟨0,2,.ofOctets 11 0 0 5,"host",false⟩,⟨0,1,localhost,"host",true⟩],["host"]⟩ :=
    .register hlocal (.inr List.not_mem_nil) hreg
  obtain ⟨hip,hname,-⟩ := (dns_unique hrun).2.2.2.1 _ List.mem_cons_self (by decide)
  exact ⟨_,hrun,hip.trans hname.symm,hname ▸ rfl⟩

end Registry

end Routing

end Phantom
