import Phantom.Tcp.BooksRun

/-! How a send cuts the user's data into packets and numbers them. -/
namespace Phantom
namespace Tcp
namespace Endpoint

/-- The socket of a send with its packets, before the flush. -/
def segmented (t : Endpoint) (data : List UInt8) : Endpoint :=
  (sendSegments (segments (t.accepted data).length (t.accepted data)) t).2

/-- The number of packets for so many bytes. -/
def segmentCount (n : ℕ) : ℕ := (n+maxPacketLength-1)/maxPacketLength

/-- How many bytes a send takes. -/
def bytesTaken (t : Endpoint) (data : List UInt8) : ℕ :=
  min (min data.length 65535) t.getBufferSpaceOut

def afterEvents (t : Endpoint) (es : List Occurrence) : Endpoint :=
  es.foldl (fun t e ↦ (t.occur e).2) t

/-- Events that neither send nor close, and find no FIN pending. -/
def NoneNumbers : Endpoint → List Occurrence → Prop
  | _,[] => True
  | t,e::es => ¬t.mayNumber e.event ∧ NoneNumbers (t.occur e).2 es

/-- What a send of a socket that may send does: it blocks, or it takes bytes in order and gives the
numbers that follow to their packets, after which the numbers go on; no other packet takes one,
except a FIN. -/
structure SendLaw (t : Endpoint) (data : List UInt8) : Prop where
  blocks : (t.sendUserData data).2.1=.error .ewouldblock ↔ 0<data.length ∧ t.getBufferSpaceOut=0
  result : ¬(0<data.length ∧ t.getBufferSpaceOut=0) → (t.sendUserData data).2.1=.ok (t.bytesTaken data)
  count : (t.sendUserData data).1.length=segmentCount (t.bytesTaken data)
  lengths : ∀ p ∈ (t.sendUserData data).1, 1 ≤ p.payloadLength ∧ p.payloadLength ≤ maxPacketLength
  bytes : ((t.sendUserData data).1.map Packet.payload).flatten=data.take (t.bytesTaken data)
  numbers : (t.sendUserData data).1.map Packet.sequence=
    (List.range (t.sendUserData data).1.length).map fun i ↦ u32 (t.send.next+i)
  goesOn : u32 (t.segmented data).send.next=u32 (t.send.next+(t.sendUserData data).1.length)
  between : t.flags.shouldSendWrFin=false → ∀ es, NoneNumbers (t.sendUserData data).2.2 es →
    ((t.sendUserData data).2.2.afterEvents es).send.next=(t.segmented data).send.next

variable {t : Endpoint} {data : List UInt8} {n m : ℕ}

lemma maxPacketLength_pos : 0 < maxPacketLength := by decide

lemma segments_flatten (h : data.length ≤ n) : (segments n data).flatten=data := by
  induction n generalizing data with
  | zero =>
    rw [List.length_eq_zero_iff.mp (Nat.le_zero.mp h)]
    rfl
  | succ n ih =>
    rw [segments]
    split_ifs with hnil
    · rw [List.isEmpty_iff.mp hnil]
      rfl
    · have hpos := maxPacketLength_pos
      rw [List.flatten_cons,ih (by rw [List.length_drop]; omega)]
      exact List.take_append_drop _ _

lemma segments_length_le (n : ℕ) (data : List UInt8) :
    ∀ s ∈ segments n data, s.length ≤ maxPacketLength := by
  induction n generalizing data with
  | zero => simp [segments]
  | succ n ih =>
    rw [segments]
    split_ifs
    · simp
    · intro s hs
      rcases List.mem_cons.mp hs with rfl | hs
      · exact List.length_take_le _ _
      · exact ih _ s hs

lemma length_segments (h : data.length ≤ n) :
    (segments n data).length=segmentCount data.length := by
  have hpos := maxPacketLength_pos
  induction n generalizing data with
  | zero =>
    rw [Nat.le_zero.mp h]
    exact (Nat.div_eq_of_lt (by omega)).symm
  | succ n ih =>
    rw [segments]
    split_ifs with hnil
    · rw [List.isEmpty_iff.mp hnil]
      exact (Nat.div_eq_of_lt (by rw [List.length_nil]; omega)).symm
    · have hlen : 0<data.length := List.length_pos_iff.mpr (by simpa [List.isEmpty_iff] using hnil)
      rw [List.length_cons,ih (by rw [List.length_drop]; omega),List.length_drop]
      unfold segmentCount
      by_cases hle : data.length ≤ maxPacketLength
      · rw [Nat.sub_eq_zero_of_le hle,Nat.zero_add,Nat.div_eq_of_lt (by omega)]
        exact (Nat.div_eq_of_lt_le (by omega) (by omega)).symm
      · rw [← Nat.add_div_right _ hpos]
        congr 1
        omega

/-- The counter after a number has been given; there is none after 0. -/
def advance (n : ℕ) : ℕ := if 0<n then u32 (n+1) else n

lemma createPacket_payload {segment : List UInt8} (hne : segment ≠ []) (flags : PacketFlags) :
    (t.createPacket flags segment).1.payload=segment ∧
    (t.createPacket flags segment).1.sequence=t.send.next ∧
    (t.createPacket flags segment).2.send.next=advance t.send.next := by
  have hpay : segment.isEmpty=false := List.isEmpty_eq_false_iff.mpr hne
  simp [createPacket,hpay,updateReceiveWindow,assert,advance]

lemma next_bufferPacketOut (p : Packet) : (t.bufferPacketOut p).send.next=t.send.next :=
  congrArg Books.next (books_bufferPacketOut t p)

lemma sendSegments_spec (segments : List (List UInt8)) (hne : ∀ s ∈ segments, s ≠ []) :
    (sendSegments segments t).1.map Packet.payload=segments ∧
    (sendSegments segments t).1.map Packet.sequence=
      (List.range segments.length).map (fun i ↦ advance^[i] t.send.next) ∧
    (sendSegments segments t).2.send.next=advance^[segments.length] t.send.next ∧
    (sendSegments segments t).2.flags=t.flags := by
  induction segments generalizing t with
  | nil => exact ⟨rfl,rfl,rfl,rfl⟩
  | cons segment segments ih =>
    obtain ⟨hpay,hseq,hnext⟩ := createPacket_payload (t := t) (hne segment List.mem_cons_self) .ack'
    rw [sendSegments]
    dsimp only
    have hflags := congrArg Control.flags (control_bufferPacketOut
      {(t.createPacket .ack' segment).2 with
        send := {(t.createPacket .ack' segment).2.send with
          last := u32 ((t.createPacket .ack' segment).2.send.last+1)}}
      (t.createPacket .ack' segment).1)
    have hbuffer := (next_bufferPacketOut (t :=
      {(t.createPacket .ack' segment).2 with
        send := {(t.createPacket .ack' segment).2.send with
          last := u32 ((t.createPacket .ack' segment).2.send.last+1)}})
      (t.createPacket .ack' segment).1).trans hnext
    generalize bufferPacketOut _ (t.createPacket .ack' segment).1=u at hflags hbuffer ⊢
    obtain ⟨ih₁,ih₂,ih₃,ih₄⟩ := ih (t := u) fun s hs ↦ hne s (List.mem_cons_of_mem _ hs)
    refine ⟨?_,?_,?_,ih₄.trans hflags⟩
    · rw [List.map_cons,hpay,ih₁]
    · rw [List.map_cons,hseq,ih₂,hbuffer,List.length_cons,List.range_succ_eq_map,List.map_cons,
        List.map_map]
      rfl
    · rw [ih₃,hbuffer]
      rfl

lemma advance_of_lt (hpos : 0 < n) (hlt : n+1<2^32) : advance n=n+1 := by
  rw [advance,if_pos hpos,u32,Nat.mod_eq_of_lt hlt]

lemma iterate_advance_zero (m : ℕ) : advance^[m] 0=0 := Function.iterate_fixed rfl m

lemma iterate_advance (hpos : 0 < n) (hlt : n+m<2^32) : advance^[m] n=n+m := by
  induction m with
  | zero => rfl
  | succ m ih =>
    rw [Function.iterate_succ_apply',ih (by omega),advance_of_lt (by omega) (by omega)]
    rfl

lemma iterate_advance_wraps (hpos : 0 < n) (hm : 0 < m) (heq : n+m=2^32) : advance^[m] n=0 := by
  obtain ⟨k,rfl⟩ := Nat.exists_eq_succ_of_ne_zero hm.ne'
  rw [Function.iterate_succ_apply',iterate_advance hpos (by omega),advance,if_pos (by omega),u32,
    show n+k+1=2^32 from by omega,Nat.mod_self]

/-- The numbers are consecutive and go on exactly if 0 is neither reached before the last packet nor
the first of them. -/
lemma consecutive_iff (hm : m<2^31) :
    ((List.range m).map (fun i ↦ advance^[i] n)=(List.range m).map (fun i ↦ u32 (n+i)) ∧
      u32 (advance^[m] n)=u32 (n+m)) ↔ m=0 ∨ (0 < n ∧ n+m ≤ 2^32) := by
  by_cases hzero : m=0
  · subst hzero
    simp
  rw [List.map_inj_left]
  simp only [List.mem_range,hzero,false_or]
  constructor
  · rintro ⟨hnumbers,hgoes⟩
    have hfirst : n=u32 n := hnumbers 0 (by omega)
    have hlt : n<2^32 := by
      rw [hfirst]
      exact Nat.mod_lt _ (by norm_num)
    have hpos : 0 < n := by
      by_contra hn
      obtain rfl : n=0 := by omega
      rw [iterate_advance_zero,Nat.zero_add,u32,u32,Nat.mod_eq_of_lt (a := m) (by omega)] at hgoes
      omega
    refine ⟨hpos,?_⟩
    by_contra hover
    -- the counter sticks at 0 once it has wrapped
    obtain ⟨k,hk⟩ : ∃ k, m=k+(2^32-n) := ⟨m-(2^32-n),by omega⟩
    have hstuck : advance^[m] n=0 := by
      rw [hk,Function.iterate_add_apply,iterate_advance_wraps hpos (by omega) (by omega),
        iterate_advance_zero]
    rw [hstuck,u32,u32] at hgoes
    omega
  · rintro ⟨hpos,hle⟩
    refine ⟨fun i hi ↦ ?_,?_⟩
    · rw [iterate_advance hpos (by omega),u32,Nat.mod_eq_of_lt (by omega)]
    · rcases Nat.lt_or_eq_of_le hle with hlt | heq
      · rw [iterate_advance hpos hlt]
      · rw [iterate_advance_wraps hpos (by omega) heq,heq]
        rfl

lemma length_accepted : (t.accepted data).length=t.bytesTaken data := by
  unfold accepted bytesTaken
  rw [List.length_take]
  omega

lemma segmentCount_lt (h : n ≤ 65535) : segmentCount n<2^31 := by
  unfold segmentCount maxPacketLength mtu headerSize
  omega

lemma bytesTaken_eq_zero_iff : t.bytesTaken data=0 ↔ data.length=0 ∨ t.getBufferSpaceOut=0 := by
  unfold bytesTaken
  omega

lemma next_afterEvents (es : List Occurrence) (h : NoneNumbers t es) :
    (t.afterEvents es).send.next=t.send.next := by
  induction es generalizing t with
  | nil => rfl
  | cons e es ih =>
    have hmay : ¬(t.atTime e.now e.takes).mayNumber e.event := by
      intro hmay
      refine h.1 ?_
      cases he : e.event <;> rw [he] at hmay <;> exact hmay
    exact (ih h.2).trans ((goes_handle (t.atTime e.now e.takes) e.event).next hmay)

lemma next_flush (h : t.flags.shouldSendWrFin=true → False) : t.flush.send.next=t.send.next := by
  have hgoes : Books.Goes False t.books t.flush.books := goes_flush t h
  exact hgoes.next id

lemma sendUserData_eq (h : t.error.sendEof=false) : t.sendUserData data=
    ((sendSegments (segments (t.accepted data).length (t.accepted data)) t).1,
      if (t.accepted data).length=0 && !data.isEmpty then .error .ewouldblock
        else .ok (t.accepted data).length,
      (t.segmented data).flush) := by
  unfold sendUserData
  rw [if_neg (by rw [h]; exact Bool.false_ne_true)]
  rfl

lemma sendUserData_spec (data : List UInt8) (h : t.error.sendEof=false) :
    ((t.sendUserData data).2.1=.error .ewouldblock ↔ 0<data.length ∧ t.getBufferSpaceOut=0) ∧
    (¬(0<data.length ∧ t.getBufferSpaceOut=0) →
      (t.sendUserData data).2.1=.ok (t.bytesTaken data)) := by
  rw [sendUserData_eq h]
  dsimp only
  rw [length_accepted]
  have hzero : t.bytesTaken data=0 ↔ data.length=0 ∨ t.getBufferSpaceOut=0 := bytesTaken_eq_zero_iff
  have hempty : data.isEmpty=false ↔ 0<data.length := by
    rw [List.isEmpty_eq_false_iff,List.length_pos_iff]
  by_cases hblocks : 0<data.length ∧ t.getBufferSpaceOut=0
  · rw [if_pos (by rw [hzero.mpr (Or.inr hblocks.2),hempty.mpr hblocks.1]; rfl)]
    exact ⟨iff_of_true rfl hblocks,fun hnot ↦ absurd hblocks hnot⟩
  · rw [if_neg]
    · exact ⟨iff_of_false (fun he ↦ by cases he) hblocks,fun _ ↦ rfl⟩
    · rw [Bool.and_eq_true,decide_eq_true_eq,Bool.not_eq_true',hempty,hzero]
      omega

/-- A send that is allowed does what it should exactly if the numbers do not run over. -/
theorem sendLaw_iff (data : List UInt8) (h : t.error.sendEof=false) :
    t.SendLaw data ↔ segmentCount (t.bytesTaken data)=0 ∨
      (0<t.send.next ∧ t.send.next+segmentCount (t.bytesTaken data) ≤ 2^32) := by
  have hlen : (t.accepted data).length=t.bytesTaken data := length_accepted
  have hle : t.bytesTaken data ≤ 65535 := by
    unfold bytesTaken
    omega
  have hcount : (segments (t.accepted data).length (t.accepted data)).length=
      segmentCount (t.bytesTaken data) := by
    rw [length_segments le_rfl,hlen]
  have hne := segments_ne_nil (t.accepted data).length (t.accepted data)
  obtain ⟨hpay,hseq,hnext,hflags⟩ := sendSegments_spec (t := t) _ hne
  have hpackets : (t.sendUserData data).1.length=segmentCount (t.bytesTaken data) := by
    rw [sendUserData_eq h,← hcount,← congrArg List.length hpay,List.length_map]
  have hlaw := consecutive_iff (n := t.send.next) (segmentCount_lt hle)
  have hnumbers : (t.sendUserData data).1.map Packet.sequence=
      (List.range (segmentCount (t.bytesTaken data))).map fun i ↦ advance^[i] t.send.next := by
    rw [sendUserData_eq h,← hcount]
    exact hseq
  have hsegmented : (t.segmented data).send.next=
      advance^[segmentCount (t.bytesTaken data)] t.send.next := by
    rw [← hcount]
    exact hnext
  rw [← hlaw]
  constructor
  · intro law
    have hn := law.numbers
    have hg := law.goesOn
    rw [hnumbers,hpackets] at hn
    rw [hsegmented,hpackets] at hg
    exact ⟨hn,hg⟩
  · rintro ⟨hn,hg⟩
    obtain ⟨hblocks,hresult⟩ := sendUserData_spec data h
    refine ⟨hblocks,hresult,hpackets,?_,?_,?_,?_,?_⟩
    · intro p hp
      rw [sendUserData_eq h] at hp
      have hmem : p.payload ∈ segments (t.accepted data).length (t.accepted data) := by
        rw [← hpay]
        exact List.mem_map_of_mem hp
      exact ⟨List.length_pos_iff.mpr (hne _ hmem),segments_length_le _ _ _ hmem⟩
    · rw [sendUserData_eq h]
      dsimp only
      rw [hpay,segments_flatten le_rfl]
      rfl
    · rw [hnumbers,hpackets]
      exact hn
    · rw [hsegmented,hpackets]
      exact hg
    · intro hfin es hes
      rw [next_afterEvents es hes,sendUserData_eq h]
      have hpending : (t.segmented data).flags.shouldSendWrFin=true → False := by
        rw [show (t.segmented data).flags=t.flags from hflags,hfin]
        exact Bool.false_ne_true
      exact next_flush hpending

/-- Two packets, the second of them with a single byte. -/
theorem sendLaw_two_packets :
    (new plainEnv 174760 131072).SendLaw (List.replicate 1435 7) :=
  (sendLaw_iff (List.replicate 1435 7) rfl).mpr (Or.inr (by decide +kernel))

/-- A socket whose counter has run over to 0. -/
def wrapped : Endpoint :=
  {new plainEnv 174760 131072 with send := {(new plainEnv 174760 131072).send with next := 0}}

/-- The number 0 is given to a packet, and given again to the next one. -/
theorem wrapped_number_reused : ¬wrapped.SendLaw [7] := fun law ↦
  absurd law.goesOn (by decide)

end Endpoint
end Tcp
end Phantom
