import Phantom.Routing.Attachment
import Mathlib.Algebra.Group.Nat.Defs

/-! The DNS: the addresses that it makes up, and its tables from addresses and names to address
objects. -/
namespace Phantom
namespace Routing

/-- The address object; `ip` is in network order. -/
structure Address where
  hostID : ℕ
  mac : ℕ
  ip : InAddr
  name : String
  isLocal : Bool
  deriving DecidableEq, Repr

/-- A network with the number of leading bits that its addresses share. -/
structure Cidr where
  subnetIP : InAddr
  cidrBits : ℕ
  deriving DecidableEq, Repr

/-- The mask of `_dns_isIPInRange`, in host order. -/
def netmask (cidrBits : ℕ) : BitVec 32 :=
  (List.range 32).foldl (fun netmask i ↦ (netmask <<< 1)+if i<cidrBits then 1 else 0) 0

/-- `_dns_isIPInRange`. -/
def isIPInRange (netIP : InAddr) (cidr : Cidr) : Bool :=
  netIP &&& htonl (netmask cidr.cidrBits) == cidr.subnetIP &&& htonl (netmask cidr.cidrBits)

/-- The reserved networks. -/
def restrictedNetworks : List Cidr :=
  [⟨.ofOctets 0 0 0 0,8⟩,⟨.ofOctets 10 0 0 0,8⟩,⟨.ofOctets 100 64 0 0,10⟩,⟨.ofOctets 127 0 0 0,8⟩,
    ⟨.ofOctets 169 254 0 0,16⟩,⟨.ofOctets 172 16 0 0,12⟩,⟨.ofOctets 192 0 0 0,29⟩,
    ⟨.ofOctets 192 0 2 0,24⟩,⟨.ofOctets 192 88 99 0,24⟩,⟨.ofOctets 192 168 0 0,16⟩,
    ⟨.ofOctets 198 18 0 0,15⟩,⟨.ofOctets 198 51 100 0,24⟩,⟨.ofOctets 203 0 113 0,24⟩,
    ⟨.ofOctets 224 0 0 0,4⟩,⟨.ofOctets 240 0 0 0,4⟩,⟨.ofOctets 255 255 255 255,32⟩]

/-- `_dns_isRestricted`. -/
def isRestricted (netIP : InAddr) : Bool := restrictedNetworks.any (isIPInRange netIP)

/-- 127.0.0.1. -/
def localhost : InAddr := .ofOctets 127 0 0 1

structure Dns where
  ipAddressCounter : BitVec 32
  macAddressCounter : ℕ
  addressByIP : InAddr → Option Address
  addressByName : String → Option Address

namespace Dns

/-- `dns_new`: the counter starts at 11.0.0.0. -/
def new : Dns := ⟨htonl (InAddr.ofOctets 11 0 0 0),0,fun _ ↦ none,fun _ ↦ none⟩

/-- `_dns_isIPUnique`. -/
def isIPUnique (dns : Dns) (ip : InAddr) : Bool := (dns.addressByIP ip).isNone

/-- The loop of `_dns_generateIP` for as many turns as the fuel allows. The counter comes back after
2^32 turns, so a loop that outlasts these never ends. -/
def generate (dns : Dns) : ℕ → Option (InAddr × Dns)
  | 0 => none
  | fuel+1 =>
    let dns := {dns with ipAddressCounter := dns.ipAddressCounter+1}
    let ip := htonl dns.ipAddressCounter
    if isRestricted ip || !dns.isIPUnique ip then dns.generate fuel else some (ip,dns)

/-- `_dns_generateIP`; `none` if the loop never ends. -/
def generateIP (dns : Dns) : Option (InAddr × Dns) := dns.generate (2^32)

/-- The address of a registration, and whether it is local. Text that is no address requests
255.255.255.255. -/
def chooseIP (dns : Dns) : Option InAddr → Option (InAddr × Bool × Dns)
  | none => dns.generateIP.map fun (ip,dns) ↦ (ip,false,dns)
  | some ip =>
    if ip=localhost then some (ip,true,dns)
    else if isRestricted ip || !dns.isIPUnique ip then
      dns.generateIP.map fun (ip,dns) ↦ (ip,false,dns)
    else some (ip,false,dns)

/-- An address enters both tables. -/
def store (dns : Dns) (address : Address) : Dns :=
  {dns with
    addressByIP := Function.update dns.addressByIP address.ip (some address)
    addressByName := Function.update dns.addressByName address.name (some address)}

/-- `dns_register`; `none` if it does not return. -/
def register (dns : Dns) (id : ℕ) (name : String) (requestedIP : Option InAddr) :
    Option (Address × Dns) :=
  let dns := {dns with macAddressCounter := (dns.macAddressCounter+1)%2^32}
  (dns.chooseIP requestedIP).map fun (ip,isLocal,dns) ↦
    let address : Address := ⟨id,dns.macAddressCounter,ip,name,isLocal⟩
    (address,if isLocal then dns else dns.store address)

/-- `dns_deregister`. -/
def deregister (dns : Dns) (address : Address) : Dns :=
  if address.isLocal then dns
  else {dns with
    addressByIP := Function.update dns.addressByIP address.ip none
    addressByName := Function.update dns.addressByName address.name none}

def resolveIPToAddress (dns : Dns) (ip : InAddr) : Option Address := dns.addressByIP ip

def resolveNameToAddress (dns : Dns) (name : String) : Option Address := dns.addressByName name

end Dns

end Routing

end Phantom
