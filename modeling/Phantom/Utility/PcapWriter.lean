import Phantom.Utility.FixedWidth

/-! The capture files of network interfaces, and a reader of capture files. -/
namespace Phantom.PCap
open FixedWidth

structure PacketTCPHeader where
  flags : UInt32
  sourceIP : UInt32
  sourcePort : UInt16
  destinationIP : UInt32
  destinationPort : UInt16
  sequence : UInt32
  acknowledgment : UInt32
  window : UInt32
  deriving DecidableEq, Repr

structure PacketUDPHeader where
  flags : UInt32
  sourceIP : UInt32
  sourcePort : UInt16
  destinationIP : UInt32
  destinationPort : UInt16
  deriving DecidableEq, Repr

inductive PacketHeader where
  | tcp (h : PacketTCPHeader)
  | udp (h : PacketUDPHeader)
  deriving DecidableEq, Repr

/-- Addresses and ports are in network order, as in memory. -/
structure Packet where
  header : PacketHeader
  payload : List UInt8
  deriving DecidableEq, Repr

namespace PacketHeader

def sourceIP : PacketHeader → UInt32
  | tcp h => h.sourceIP
  | udp h => h.sourceIP

def sourcePort : PacketHeader → UInt16
  | tcp h => h.sourcePort
  | udp h => h.sourcePort

def destinationIP : PacketHeader → UInt32
  | tcp h => h.destinationIP
  | udp h => h.destinationIP

def destinationPort : PacketHeader → UInt16
  | tcp h => h.destinationPort
  | udp h => h.destinationPort

/-- The protocol's number in an IP header. -/
def protocol : PacketHeader → ℕ
  | tcp _ => 6
  | udp _ => 17

def IsTCP : PacketHeader → Prop
  | tcp _ => True
  | udp _ => False

instance : (h : PacketHeader) → Decidable h.IsTCP
  | tcp _ => isTrue trivial
  | udp _ => isFalse id

/-- `packet_getTCPHeader`. The assertion is compiled in under `DEBUG` only. The fields of a UDP header
are where those of a TCP header are; what is read behind them is `beyond`. -/
def getTCPHeader (debug : Bool) (beyond : UInt32 × UInt32 × UInt32) : PacketHeader → Option PacketTCPHeader
  | tcp h => some h
  | udp h =>
    if debug then none
    else some ⟨h.flags,h.sourceIP,h.sourcePort,h.destinationIP,h.destinationPort,beyond.1,beyond.2.1,beyond.2.2⟩

end PacketHeader

namespace Packet

def getHeaderSize (p : Packet) : UInt32 :=
  match p.header with
  | .udp _ => 42
  | .tcp _ => 66

def getPayloadLength (p : Packet) : UInt32 := UInt32.ofNat p.payload.length

end Packet

structure PCapPacket where
  srcIP : UInt32
  dstIP : UInt32
  srcPort : UInt16
  dstPort : UInt16
  rstFlag : Bool
  synFlag : Bool
  ackFlag : Bool
  finFlag : Bool
  seq : UInt32
  ack : UInt32
  win : UInt16
  headerSize : UInt32
  payloadLength : UInt32
  payload : List UInt8
  deriving DecidableEq, Repr

/-- A packet that an interface captures, and when. -/
structure Capture where
  now : ℕ
  packet : Packet
  beyond : UInt32 × UInt32 × UInt32
  deriving DecidableEq, Repr

/-- `_networkinterface_capturePacket` up to the call of the writer. -/
def capturePacket (debug : Bool) (c : Capture) : Option PCapPacket := do
  let tcpHeader ← c.packet.header.getTCPHeader debug c.beyond
  some
    { srcIP := tcpHeader.sourceIP
      dstIP := tcpHeader.destinationIP
      srcPort := tcpHeader.sourcePort
      dstPort := tcpHeader.destinationPort
      rstFlag := tcpHeader.flags&&&2≠0
      synFlag := tcpHeader.flags&&&4≠0
      ackFlag := tcpHeader.flags&&&8≠0
      finFlag := tcpHeader.flags&&&32≠0
      seq := tcpHeader.sequence
      ack := if tcpHeader.flags&&&8≠0 then tcpHeader.acknowledgment else 0
      win := tcpHeader.window.toUInt16
      headerSize := c.packet.getHeaderSize
      payloadLength := c.packet.getPayloadLength
      payload := c.packet.payload.take c.packet.getPayloadLength.toNat }

def writeHeader : List UInt8 :=
  leBytes 4 0xA1B2C3D4++leBytes 2 2++leBytes 2 4++leBytes 4 0++leBytes 4 0++leBytes 4 65535++leBytes 4 1

def ethernetHeader : List UInt8 :=
  [0x01,0x23,0x45,0x67,0x89,0xAB]++[0xA1,0xB2,0xC3,0xD4,0xE5,0xF6]++beBytes 2 0x0800

def ipHeader (origLen : UInt32) (packet : PCapPacket) : List UInt8 :=
  [0x45]++[0x00]++beBytes 2 (origLen-14).toNat++leBytes 2 0x0000++leBytes 2 0x0040++[64]++[6]++leBytes 2 0x0000++
    leBytes 4 packet.srcIP.toNat++leBytes 4 packet.dstIP.toNat

def tcpFlags (packet : PCapPacket) : UInt8 :=
  (if packet.rstFlag then 0x04 else 0)|||(if packet.synFlag then 0x02 else 0)|||
    (if packet.ackFlag then 0x10 else 0)|||(if packet.finFlag then 0x01 else 0)

def tcpHeader (packet : PCapPacket) : List UInt8 :=
  leBytes 2 packet.srcPort.toNat++leBytes 2 packet.dstPort.toNat++beBytes 4 packet.seq.toNat++
    (if packet.ackFlag then beBytes 4 packet.ack.toNat else leBytes 4 0)++[0x80]++[tcpFlags packet]++
      beBytes 2 packet.win.toNat++leBytes 2 0x0000++List.replicate 14 0x00

/-- `pcapwriter_writePacket`. -/
def writePacket (now : ℕ) (packet : PCapPacket) : List UInt8 :=
  let inclLen := packet.headerSize+packet.payloadLength
  let origLen := packet.headerSize+packet.payloadLength
  leBytes 4 (now/1000000000)++leBytes 4 (now%1000000000/1000)++leBytes 4 inclLen.toNat++leBytes 4 origLen.toNat++
    (ethernetHeader++ipHeader origLen packet++tcpHeader packet++packet.payload)

/-- The records of captured packets. -/
def writePackets (debug : Bool) : List Capture → Option (List UInt8)
  | [] => some []
  | c::cs => do
    let packet ← capturePacket debug c
    let rest ← writePackets debug cs
    some (writePacket c.now packet++rest)

def captureFile (debug : Bool) (cs : List Capture) : Option (List UInt8) := do
  let records ← writePackets debug cs
  some (writeHeader++records)

/-- A record that was read. -/
structure Record where
  tsSec : ℕ
  tsUsec : ℕ
  origLen : ℕ
  data : List UInt8
  deriving DecidableEq, Repr

/-- Sixteen bytes, and as many as they say. -/
def readRecord (bytes : List UInt8) : Option (Record × List UInt8) :=
  let inclLen := ofLeBytes ((bytes.drop 8).take 4)
  if 16+inclLen ≤ bytes.length then
    some (⟨ofLeBytes (bytes.take 4),ofLeBytes ((bytes.drop 4).take 4),ofLeBytes ((bytes.drop 12).take 4),
      (bytes.drop 16).take inclLen⟩,bytes.drop (16+inclLen))
  else none

lemma readRecord_length {bytes rest : List UInt8} {r : Record} (h : readRecord bytes=some (r,rest)) :
    rest.length < bytes.length := by
  simp only [readRecord] at h
  split at h
  · obtain ⟨-,rfl⟩ := Prod.mk.inj (Option.some.inj h)
    rw [List.length_drop]
    omega
  · exact nomatch h

def readRecords (bytes : List UInt8) : Option (List Record) :=
  if bytes=[] then some []
  else match _h : readRecord bytes with
    | none => none
    | some (r,rest) => (readRecords rest).map (r::·)
termination_by bytes.length
decreasing_by exact readRecord_length _h

/-- A file in the byte order of the machine, of packets of Ethernet. -/
def readFile (bytes : List UInt8) : Option (List Record) := do
  guard (24 ≤ bytes.length)
  guard (ofLeBytes (bytes.take 4)=0xA1B2C3D4)
  guard (ofLeBytes ((bytes.drop 20).take 4)=1)
  readRecords (bytes.drop 24)

namespace Record

def byte (r : Record) (i : ℕ) : ℕ := (r.data[i]?.getD 0).toNat

def field (r : Record) (i n : ℕ) : List UInt8 := (r.data.drop i).take n

def ipTotalLength (r : Record) : ℕ := ofBeBytes (r.field 16 2)

def protocol (r : Record) : ℕ := r.byte 23

def sourceIP (r : Record) : ℕ := ofLeBytes (r.field 26 4)

def destinationIP (r : Record) : ℕ := ofLeBytes (r.field 30 4)

/-- Where the transport header starts. -/
def transport (r : Record) : ℕ := 14+r.byte 14%16*4

def sourcePort (r : Record) : ℕ := ofLeBytes (r.field r.transport 2)

def destinationPort (r : Record) : ℕ := ofLeBytes (r.field (r.transport+2) 2)

/-- The length of the transport header. -/
def transportLength (r : Record) : ℕ :=
  if r.protocol=17 then 8 else r.byte (r.transport+12)/16*4

def payload (r : Record) : List UInt8 := r.data.drop (r.transport+r.transportLength)

/-- The record is the one of a captured packet. -/
structure Faithful (r : Record) (c : Capture) : Prop where
  seconds : r.tsSec=c.now/1000000000
  microseconds : r.tsUsec=c.now%1000000000/1000
  protocol : r.protocol=c.packet.header.protocol
  sourceIP : r.sourceIP=c.packet.header.sourceIP.toNat
  destinationIP : r.destinationIP=c.packet.header.destinationIP.toNat
  sourcePort : r.sourcePort=c.packet.header.sourcePort.toNat
  destinationPort : r.destinationPort=c.packet.header.destinationPort.toNat
  payload : r.payload=c.packet.payload
  ipTotalLength : r.ipTotalLength+14=r.data.length

end Record

/-- The file of the packets can be read, and has one record for each. -/
def ReadsBack (debug : Bool) (cs : List Capture) : Prop :=
  ∃ file, captureFile debug cs=some file ∧ ∃ rs, readFile file=some rs ∧ List.Forall₂ Record.Faithful rs cs

/-- A TCP packet whose length and time the formats can hold. -/
def Capture.Fits (c : Capture) : Prop :=
  c.packet.header.IsTCP ∧ 52+c.packet.payload.length < 2^16 ∧ c.now/1000000000 < 2^32

lemma ofLeBytes_uint16 (v : UInt16) : ofLeBytes (leBytes 2 v.toNat)=v.toNat :=
  (ofLeBytes_leBytes 2 _).trans (Nat.mod_eq_of_lt v.toNat_lt)

lemma ofLeBytes_uint32 (v : UInt32) : ofLeBytes (leBytes 4 v.toNat)=v.toNat :=
  (ofLeBytes_leBytes 4 _).trans (Nat.mod_eq_of_lt v.toNat_lt)

/-- The bytes of a record behind its header. -/
def frame (packet : PCapPacket) : List UInt8 :=
  ethernetHeader++ipHeader (packet.headerSize+packet.payloadLength) packet++tcpHeader packet++packet.payload

lemma writePacket_length (now : ℕ) (packet : PCapPacket) :
    (writePacket now packet).length=16+(frame packet).length := by
  simp only [writePacket,frame,List.length_append,length_leBytes]

lemma length_tcpHeader (packet : PCapPacket) : (tcpHeader packet).length=32 := by
  rw [tcpHeader]
  split <;> rfl

lemma drop_frame (packet : PCapPacket) : (frame packet).drop 66=packet.payload := by
  refine List.drop_left' ?_
  rw [List.length_append,List.length_append,length_tcpHeader]
  rfl

lemma length_frame (packet : PCapPacket) : (frame packet).length=66+packet.payload.length := by
  rw [frame,List.length_append,List.length_append,List.length_append,length_tcpHeader]
  rfl

lemma frame_dataOffset (packet : PCapPacket) : (frame packet)[46]?=some 0x80 := by
  rw [frame,tcpHeader]
  split <;> rfl

lemma readRecord_write (now : ℕ) (packet : PCapPacket) (rest : List UInt8) {n : ℕ}
    (hn : (packet.headerSize+packet.payloadLength).toNat=n) :
    readRecord (writePacket now packet++rest)=
      if n ≤ (frame packet++rest).length then
        some (⟨now/1000000000%2^32,now%1000000000/1000%2^32,n,(frame packet++rest).take n⟩,
          (frame packet++rest).drop n)
      else none := by
  have hincl : ofLeBytes (((writePacket now packet++rest).drop 8).take 4)=n := by
    have : ((writePacket now packet++rest).drop 8).take 4=
        leBytes 4 (packet.headerSize+packet.payloadLength).toNat := rfl
    rw [this,ofLeBytes_leBytes,hn,Nat.mod_eq_of_lt]
    exact hn ▸ UInt32.toNat_lt _
  have hsec : ofLeBytes ((writePacket now packet++rest).take 4)=now/1000000000%2^32 :=
    ofLeBytes_leBytes 4 (now/1000000000)
  have husec : ofLeBytes (((writePacket now packet++rest).drop 4).take 4)=now%1000000000/1000%2^32 :=
    ofLeBytes_leBytes 4 (now%1000000000/1000)
  have horig : ofLeBytes (((writePacket now packet++rest).drop 12).take 4)=n := hincl
  have hdrop : (writePacket now packet++rest).drop 16=frame packet++rest := rfl
  have hlen : (writePacket now packet++rest).length=16+(frame packet++rest).length := by
    rw [List.length_append,List.length_append,writePacket_length]
    omega
  simp only [readRecord,hincl,hsec,husec,horig,hlen,hdrop,← List.drop_drop,Nat.add_le_add_iff_left]

lemma capturePacket_sizes {debug : Bool} {c : Capture} {packet : PCapPacket}
    (h : capturePacket debug c=some packet) :
    packet.headerSize=c.packet.getHeaderSize ∧ packet.payloadLength=c.packet.getPayloadLength ∧
      packet.payload=c.packet.payload.take c.packet.getPayloadLength.toNat := by
  obtain ⟨header,-,hpacket⟩ := Option.bind_eq_some_iff.mp h
  obtain rfl := Option.some.inj hpacket
  exact ⟨rfl,rfl,rfl⟩

lemma capturePacket_addresses {debug : Bool} {c : Capture} {packet : PCapPacket}
    (h : capturePacket debug c=some packet) :
    packet.srcIP=c.packet.header.sourceIP ∧ packet.dstIP=c.packet.header.destinationIP ∧
      packet.srcPort=c.packet.header.sourcePort ∧ packet.dstPort=c.packet.header.destinationPort := by
  obtain ⟨header,hheader,hpacket⟩ := Option.bind_eq_some_iff.mp h
  obtain rfl := Option.some.inj hpacket
  cases hkind : c.packet.header with
  | tcp t =>
    rw [hkind] at hheader
    obtain rfl := Option.some.inj hheader
    exact ⟨rfl,rfl,rfl,rfl⟩
  | udp u =>
    rw [hkind] at hheader
    simp only [PacketHeader.getTCPHeader] at hheader
    split at hheader
    · exact nomatch hheader
    · obtain rfl := Option.some.inj hheader
      exact ⟨rfl,rfl,rfl,rfl⟩

lemma not_faithful_udp {r : Record} {c : Capture} {packet : PCapPacket} {rest : List UInt8} {n : ℕ}
    (hdata : r.data=(frame packet++rest).take n) (hudp : ¬ c.packet.header.IsTCP) : ¬ r.Faithful c := by
  intro h
  have hprotocol := h.protocol
  have h6 : (frame packet++rest)[23]?=some 6 := rfl
  have hread : r.protocol=6 ∨ r.protocol=0 := by
    simp only [Record.protocol,Record.byte,hdata,List.getElem?_take,h6]
    split
    · exact .inl rfl
    · exact .inr rfl
  cases hkind : c.packet.header with
  | tcp t => exact hudp (by rw [hkind]; trivial)
  | udp u =>
    rw [hkind] at hprotocol
    simp only [PacketHeader.protocol] at hprotocol
    omega

lemma toNat_total {n : ℕ} (h : 66+n < 2^32) : (66+UInt32.ofNat n).toNat=66+n := by
  rw [UInt32.toNat_add,UInt32.toNat_ofNat',Nat.mod_eq_of_lt (by omega : n < 2^32)]
  exact Nat.mod_eq_of_lt h

lemma getHeaderSize_tcp {p : Packet} (h : p.header.IsTCP) : p.getHeaderSize=66 := by
  cases hkind : p.header with
  | tcp t => simp [Packet.getHeaderSize,hkind]
  | udp u =>
    rw [hkind] at h
    exact h.elim

section

variable (tsSec tsUsec origLen : ℕ) (packet : PCapPacket)

lemma transport_frame : Record.transport ⟨tsSec,tsUsec,origLen,frame packet⟩=34 := by
  have h14 : (frame packet)[14]?=some 0x45 := rfl
  rw [Record.transport,Record.byte,h14]
  rfl

lemma protocol_frame : Record.protocol ⟨tsSec,tsUsec,origLen,frame packet⟩=6 := rfl

lemma sourcePort_frame :
    Record.sourcePort ⟨tsSec,tsUsec,origLen,frame packet⟩=packet.srcPort.toNat := by
  rw [Record.sourcePort,transport_frame]
  have : Record.field ⟨tsSec,tsUsec,origLen,frame packet⟩ 34 2=leBytes 2 packet.srcPort.toNat := rfl
  rw [this,ofLeBytes_uint16]

lemma destinationPort_frame :
    Record.destinationPort ⟨tsSec,tsUsec,origLen,frame packet⟩=packet.dstPort.toNat := by
  rw [Record.destinationPort,transport_frame]
  have : Record.field ⟨tsSec,tsUsec,origLen,frame packet⟩ (34+2) 2=leBytes 2 packet.dstPort.toNat := rfl
  rw [this,ofLeBytes_uint16]

lemma sourceIP_frame : Record.sourceIP ⟨tsSec,tsUsec,origLen,frame packet⟩=packet.srcIP.toNat := by
  have : Record.field ⟨tsSec,tsUsec,origLen,frame packet⟩ 26 4=leBytes 4 packet.srcIP.toNat := rfl
  rw [Record.sourceIP,this,ofLeBytes_uint32]

lemma destinationIP_frame : Record.destinationIP ⟨tsSec,tsUsec,origLen,frame packet⟩=packet.dstIP.toNat := by
  have : Record.field ⟨tsSec,tsUsec,origLen,frame packet⟩ 30 4=leBytes 4 packet.dstIP.toNat := rfl
  rw [Record.destinationIP,this,ofLeBytes_uint32]

lemma payload_frame : Record.payload ⟨tsSec,tsUsec,origLen,frame packet⟩=packet.payload := by
  have hlength : Record.transportLength ⟨tsSec,tsUsec,origLen,frame packet⟩=32 := by
    simp [Record.transportLength,protocol_frame,transport_frame,Record.byte,frame_dataOffset]
  rw [Record.payload,transport_frame,hlength]
  exact drop_frame packet

lemma ipTotalLength_frame :
    Record.ipTotalLength ⟨tsSec,tsUsec,origLen,frame packet⟩=
      (packet.headerSize+packet.payloadLength-14).toNat%256^2 := by
  have : Record.field ⟨tsSec,tsUsec,origLen,frame packet⟩ 16 2=
      beBytes 2 (packet.headerSize+packet.payloadLength-14).toNat := rfl
  rw [Record.ipTotalLength,this,ofBeBytes_beBytes]

end

lemma captured_sizes {debug : Bool} {c : Capture} {packet : PCapPacket} (hc : capturePacket debug c=some packet)
    (htcp : c.packet.header.IsTCP) (hlen : 66+c.packet.payload.length < 2^32) :
    (packet.headerSize+packet.payloadLength).toNat=66+c.packet.payload.length ∧
      (packet.headerSize+packet.payloadLength-14).toNat=52+c.packet.payload.length ∧
      packet.payload=c.packet.payload := by
  obtain ⟨hsize,hplen,hpayload⟩ := capturePacket_sizes hc
  have htotal : (packet.headerSize+packet.payloadLength).toNat=66+c.packet.payload.length := by
    rw [hsize,hplen,getHeaderSize_tcp htcp]
    exact toNat_total hlen
  refine ⟨htotal,?_,?_⟩
  · rw [UInt32.toNat_sub_of_le]
    · rw [htotal]
      change 66+c.packet.payload.length-14=_
      omega
    · rw [UInt32.le_iff_toNat_le,htotal]
      change 14 ≤ _
      omega
  · rw [hpayload]
    refine List.take_of_length_le ?_
    rw [Packet.getPayloadLength,UInt32.toNat_ofNat',Nat.mod_eq_of_lt (by omega)]

lemma faithful_tcp {debug : Bool} {c : Capture} {packet : PCapPacket} (hc : capturePacket debug c=some packet)
    (hfits : c.Fits) (origLen : ℕ) :
    Record.Faithful ⟨c.now/1000000000%2^32,c.now%1000000000/1000%2^32,origLen,frame packet⟩ c := by
  obtain ⟨htcp,hlen,htime⟩ := hfits
  obtain ⟨-,htotal,hpayload⟩ := captured_sizes hc htcp (by omega)
  obtain ⟨hsrc,hdst,hsport,hdport⟩ := capturePacket_addresses hc
  exact
    { seconds := Nat.mod_eq_of_lt htime
      microseconds := Nat.mod_eq_of_lt (by omega)
      protocol := by
        cases hkind : c.packet.header with
        | tcp t => exact protocol_frame _ _ _ _
        | udp u =>
          rw [hkind] at htcp
          exact htcp.elim
      sourceIP := by rw [sourceIP_frame,hsrc]
      destinationIP := by rw [destinationIP_frame,hdst]
      sourcePort := by rw [sourcePort_frame,hsport]
      destinationPort := by rw [destinationPort_frame,hdport]
      payload := by rw [payload_frame,hpayload]
      ipTotalLength := by
        have hmod : (52+c.packet.payload.length)%256^2=52+c.packet.payload.length := Nat.mod_eq_of_lt hlen
        rw [ipTotalLength_frame,htotal,hmod,length_frame,hpayload]
        omega }

lemma fits_of_faithful {debug : Bool} {c : Capture} {packet : PCapPacket} {rest : List UInt8} {r : Record}
    (hc : capturePacket debug c=some packet)
    (hdata : r.data=(frame packet++rest).take (packet.headerSize+packet.payloadLength).toNat)
    (hsec : r.tsSec=c.now/1000000000%2^32) (h : r.Faithful c) : c.Fits := by
  have htcp : c.packet.header.IsTCP := by
    by_contra hudp
    exact not_faithful_udp hdata hudp h
  have htotal := h.ipTotalLength
  have hsmall : r.ipTotalLength < 2^16 := by
    refine (ofBeBytes_lt _).trans_le (Nat.pow_le_pow_right (by norm_num) ?_ : 256^_ ≤ 256^2)
    rw [Record.field,List.length_take]
    exact Nat.min_le_left _ _
  have hpayload : c.packet.payload.length ≤ r.data.length := by
    rw [← h.payload,Record.payload,List.length_drop]
    exact Nat.sub_le _ _
  obtain ⟨hincl,-,hbytes⟩ := captured_sizes hc htcp (by omega)
  have hlength : r.data.length=66+c.packet.payload.length := by
    rw [hdata,List.length_take,hincl,List.length_append,length_frame,hbytes]
    omega
  refine ⟨htcp,by omega,?_⟩
  rw [← h.seconds,hsec]
  exact Nat.mod_lt _ (by norm_num)

lemma captured_of_tcp (debug : Bool) {c : Capture} (h : c.packet.header.IsTCP) :
    ∃ packet, capturePacket debug c=some packet := by
  cases hkind : c.packet.header with
  | tcp t => exact ⟨_,by simp only [capturePacket,hkind,PacketHeader.getTCPHeader]; rfl⟩
  | udp u =>
    rw [hkind] at h
    exact h.elim

lemma readRecords_nil : readRecords []=some [] := by
  rw [readRecords]
  rfl

lemma readRecords_cons {bytes rest : List UInt8} {r : Record} (h : readRecord bytes=some (r,rest)) :
    readRecords bytes=(readRecords rest).map (r::·) := by
  have hne : bytes ≠ [] := by
    rintro rfl
    exact nomatch h
  rw [readRecords,if_neg hne]
  split
  · next hnone => exact nomatch h.symm.trans hnone
  · next r' rest' hsome =>
    obtain ⟨rfl,rfl⟩ := Prod.mk.inj (Option.some.inj (h.symm.trans hsome))
    rfl

lemma readRecords_none {bytes : List UInt8} (hne : bytes ≠ []) (h : readRecord bytes=none) :
    readRecords bytes=none := by
  rw [readRecords,if_neg hne]
  split
  · rfl
  · next hsome => exact nomatch h.symm.trans hsome

lemma writePacket_ne_nil (now : ℕ) (packet : PCapPacket) (rest : List UInt8) :
    writePacket now packet++rest ≠ [] := nofun

lemma readRecords_fits {debug : Bool} {c : Capture} {packet : PCapPacket} (hc : capturePacket debug c=some packet)
    (hfits : c.Fits) (rest : List UInt8) :
    readRecords (writePacket c.now packet++rest)=(readRecords rest).map
      (⟨c.now/1000000000%2^32,c.now%1000000000/1000%2^32,66+c.packet.payload.length,frame packet⟩::·) := by
  obtain ⟨htcp,hlen,-⟩ := hfits
  obtain ⟨hincl,-,hpayload⟩ := captured_sizes hc htcp (by omega)
  have hframe : (frame packet).length=66+c.packet.payload.length := by rw [length_frame,hpayload]
  have hread := readRecord_write c.now packet rest hincl
  rw [if_pos (by rw [List.length_append,hframe]; omega),List.take_left' hframe,List.drop_left' hframe] at hread
  exact readRecords_cons hread

lemma records_iff (debug : Bool) (cs : List Capture) :
    (∃ bytes, writePackets debug cs=some bytes ∧
      ∃ rs, readRecords bytes=some rs ∧ List.Forall₂ Record.Faithful rs cs) ↔ ∀ c ∈ cs, c.Fits := by
  induction cs with
  | nil => exact ⟨fun _ _ h ↦ absurd h List.not_mem_nil,fun _ ↦ ⟨[],rfl,[],readRecords_nil,.nil⟩⟩
  | cons c cs ih =>
    rw [List.forall_mem_cons,← ih]
    constructor
    · rintro ⟨bytes,hwrite,rs,hread,hfaithful⟩
      obtain ⟨packet,hpacket,hwrite⟩ := Option.bind_eq_some_iff.mp hwrite
      obtain ⟨rest,hrest,hwrite⟩ := Option.bind_eq_some_iff.mp hwrite
      obtain rfl := Option.some.inj hwrite
      -- the first record decides about the first packet, and only then where the second one starts
      have hfits : c.Fits := by
        have hrecord := readRecord_write c.now packet rest rfl
        split at hrecord
        · rw [readRecords_cons hrecord] at hread
          obtain ⟨rs,-,rfl⟩ := Option.map_eq_some_iff.mp hread
          exact fits_of_faithful hpacket rfl rfl (List.forall₂_cons.mp hfaithful).1
        · rw [readRecords_none (writePacket_ne_nil _ _ _) hrecord] at hread
          exact nomatch hread
      rw [readRecords_fits hpacket hfits] at hread
      obtain ⟨rs,hrs,rfl⟩ := Option.map_eq_some_iff.mp hread
      exact ⟨hfits,rest,hrest,rs,hrs,(List.forall₂_cons.mp hfaithful).2⟩
    · rintro ⟨hfits,rest,hrest,rs,hread,hfaithful⟩
      obtain ⟨packet,hpacket⟩ := captured_of_tcp debug hfits.1
      refine ⟨writePacket c.now packet++rest,?_,_::rs,?_,.cons (faithful_tcp hpacket hfits (66+c.packet.payload.length)) hfaithful⟩
      · simp [writePackets,hpacket,hrest]
      · rw [readRecords_fits hpacket hfits,hread]
        rfl

lemma readFile_header (records : List UInt8) : readFile (writeHeader++records)=readRecords records := by
  have hlen : 24 ≤ writeHeader.length+records.length := Nat.le_add_right 24 _
  have hmagic : ofLeBytes ((writeHeader++records).take 4)=0xA1B2C3D4 :=
    (ofLeBytes_leBytes 4 0xA1B2C3D4).trans (by norm_num)
  have hnetwork : ofLeBytes (((writeHeader++records).drop 20).take 4)=1 := ofLeBytes_leBytes 4 1
  have hdrop : (writeHeader++records).drop 24=records := rfl
  simp [readFile,guard,hlen,hmagic,hnetwork,hdrop]

lemma readsBack_records (debug : Bool) (cs : List Capture) :
    ReadsBack debug cs ↔ ∃ bytes, writePackets debug cs=some bytes ∧
      ∃ rs, readRecords bytes=some rs ∧ List.Forall₂ Record.Faithful rs cs := by
  constructor
  · rintro ⟨file,hfile,rs,hread,hfaithful⟩
    obtain ⟨records,hrecords,hfile⟩ := Option.bind_eq_some_iff.mp hfile
    obtain rfl := Option.some.inj hfile
    rw [readFile_header] at hread
    exact ⟨records,hrecords,rs,hread,hfaithful⟩
  · rintro ⟨records,hrecords,rs,hread,hfaithful⟩
    refine ⟨writeHeader++records,?_,rs,?_,hfaithful⟩
    · simp [captureFile,hrecords]
    · rw [readFile_header,hread]

/-- The file of captured packets can be read back exactly if all of them are TCP packets whose lengths
and times fit into the fields. -/
theorem readsBack_iff (debug : Bool) (cs : List Capture) : ReadsBack debug cs ↔ ∀ c ∈ cs, c.Fits :=
  (readsBack_records debug cs).trans (records_iff debug cs)

/-- A datagram of one byte from port 53. -/
def datagram : Capture := ⟨0,⟨.udp ⟨0,0x0100000B,0x3500,0x0200000B,0x3500⟩,[7]⟩,0,0,0⟩

theorem not_readsBack_datagram : ¬ ReadsBack false [datagram] := by
  rw [readsBack_records,records_iff]
  intro h
  exact (h datagram (List.mem_singleton_self _)).1

end Phantom.PCap
