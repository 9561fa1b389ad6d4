import Phantom.Lib.Linked
import Phantom.Shmem.Buddy

/-! The free lists of the buddy allocator. Writing a field of one control block leaves every
other field of every block alone; `_buddy_listInsert` and `_buddy_listRemove` therefore
insert into and remove from the ordered list that a head and its links describe. -/
namespace Phantom
open PackedWord Linked

namespace BuddyControlBlock

variable {mem mem' : Words} {b c : ℕ}

/-- Two memories have the same orders and tags. -/
def SameTags (mem mem' : Words) : Prop :=
  ∀ c, 8 ∣ c → order mem' c = order mem c ∧ tag mem' c = tag mem c

lemma SameTags.refl (mem : Words) : SameTags mem mem := fun _ _ => ⟨rfl,rfl⟩

lemma SameTags.trans {mem'' : Words} (h : SameTags mem mem') (h' : SameTags mem' mem'') :
    SameTags mem mem'' :=
  fun c hc => ⟨(h' c hc).1.trans (h c hc).1,(h' c hc).2.trans (h c hc).2⟩

lemma write_first_second (hb : 8 ∣ b) (hc : 8 ∣ c) (w : BitVec 32) :
    write mem b w (c+4) = mem (c+4) := by
  rw [write,if_neg (by omega)]

lemma write_second_first (hb : 8 ∣ b) (hc : 8 ∣ c) (w : BitVec 32) :
    write mem (b+4) w c = mem c := by
  rw [write,if_neg (by omega)]

lemma toNat_ofNat {v : ℕ} (h : v < 2^32) : (BitVec.ofNat 32 v).toNat = v := by
  rw [BitVec.toNat_ofNat,Nat.mod_eq_of_lt h]

lemma setNxt_spec (mem : Words) (hb : 8 ∣ b) {v : ℕ} (hv : v < 2^27) :
    ∃ mem', setNxt mem b v = some mem' ∧ SameTags mem mem' ∧
      ∀ c, 8 ∣ c → prv mem' c = prv mem c ∧ nxt mem' c = if c = b then v else nxt mem c := by
  have hv' : v < 2^(32-orderBits) := hv
  refine ⟨_,if_pos (show v ≤ orderMask by unfold orderMask; omega),?_,?_⟩
  · intro c hc
    refine ⟨?_,?_⟩
    · unfold order write
      split_ifs with h
      · subst h
        rw [high_setLow _ hv']
      · rfl
    · rw [tag,write_first_second hb hc]
      rfl
  · intro c hc
    refine ⟨?_,?_⟩
    · rw [prv,write_first_second hb hc]
      rfl
    · unfold nxt write
      split_ifs with h
      · rw [low_setLow _ hv',toNat_ofNat (hv.trans (by norm_num))]
      · rfl

lemma setPrv_spec (mem : Words) (hb : 8 ∣ b) {v : ℕ} (hv : v < 2^31) :
    ∃ mem', setPrv mem b v = some mem' ∧ SameTags mem mem' ∧
      ∀ c, 8 ∣ c → nxt mem' c = nxt mem c ∧ prv mem' c = if c = b then v else prv mem c := by
  have hv' : v < 2^(32-tagBits) := hv
  refine ⟨_,if_pos (show v ≤ tagMask by unfold tagMask; omega),?_,?_⟩
  · intro c hc
    refine ⟨?_,?_⟩
    · rw [order,write_second_first hb hc]
      rfl
    · unfold tag write
      split_ifs with h
      · obtain rfl : c = b := by omega
        rw [high_setLow _ hv']
      · rfl
  · intro c hc
    refine ⟨?_,?_⟩
    · rw [nxt,write_second_first hb hc]
      rfl
    · unfold prv write
      by_cases h : c = b
      · rw [if_pos (by omega),if_pos h,low_setLow _ hv',toNat_ofNat (hv.trans (by norm_num))]
      · rw [if_neg (by omega),if_neg h]

lemma setNxtBlock_spec (mem : Words) (hb : 8 ∣ b) {q : Option ℕ} (hq : ∀ x ∈ q, b < x ∧ x < 2^27) :
    ∃ mem', setNxtBlock mem b q = some mem' ∧ SameTags mem mem' ∧
      ∀ c, 8 ∣ c → prvBlock mem' c = prvBlock mem c ∧
        nxtBlock mem' c = if c = b then q else nxtBlock mem c := by
  cases q with
  | none =>
    obtain ⟨mem',h1,h2,h3⟩ := setNxt_spec mem hb (v := 0) (by norm_num)
    refine ⟨mem',h1,h2,fun c hc => ?_⟩
    obtain ⟨h4,h5⟩ := h3 c hc
    refine ⟨by rw [prvBlock,h4]; rfl,?_⟩
    unfold nxtBlock
    split_ifs at h5 ⊢ <;> simp_all
  | some x =>
    obtain ⟨hbx,hx⟩ := hq x rfl
    obtain ⟨mem',h1,h2,h3⟩ := setNxt_spec mem hb (v := x-b) (by omega)
    refine ⟨mem',?_,h2,fun c hc => ?_⟩
    · rw [setNxtBlock,if_pos hbx.le,Nat.mod_eq_of_lt (by omega)]
      exact h1
    · obtain ⟨h4,h5⟩ := h3 c hc
      refine ⟨by rw [prvBlock,h4]; rfl,?_⟩
      unfold nxtBlock
      split_ifs at h5 with hcb
      · rw [h5,if_neg (by omega),if_pos hcb,hcb,Nat.add_sub_cancel' hbx.le]
      · rw [h5,if_neg hcb]

lemma setPrvBlock_spec (mem : Words) (hb : 8 ∣ b) (hlt : b < 2^27) {q : Option ℕ} (hq : ∀ x ∈ q, x < b) :
    ∃ mem', setPrvBlock mem b q = some mem' ∧ SameTags mem mem' ∧
      ∀ c, 8 ∣ c → nxtBlock mem' c = nxtBlock mem c ∧
        prvBlock mem' c = if c = b then q else prvBlock mem c := by
  cases q with
  | none =>
    obtain ⟨mem',h1,h2,h3⟩ := setPrv_spec mem hb (v := 0) (by norm_num)
    refine ⟨mem',h1,h2,fun c hc => ?_⟩
    obtain ⟨h4,h5⟩ := h3 c hc
    refine ⟨by rw [nxtBlock,h4]; rfl,?_⟩
    unfold prvBlock
    split_ifs at h5 ⊢ <;> simp_all
  | some x =>
    have hxb := hq x rfl
    obtain ⟨mem',h1,h2,h3⟩ := setPrv_spec mem hb (v := b-x) (by omega)
    refine ⟨mem',?_,h2,fun c hc => ?_⟩
    · rw [setPrvBlock,if_pos hxb.le,Nat.mod_eq_of_lt (by omega)]
      exact h1
    · obtain ⟨h4,h5⟩ := h3 c hc
      refine ⟨by rw [nxtBlock,h4]; rfl,?_⟩
      unfold prvBlock
      split_ifs at h5 with hcb
      · rw [h5,if_neg (by omega),if_pos hcb,hcb]
        congr 1
        omega
      · rw [h5,if_neg hcb]

lemma setOrder_spec (mem : Words) (hb : 8 ∣ b) {v : ℕ} (hv : v < 32) :
    ∃ mem', setOrder mem b v = some mem' ∧
      ∀ c, 8 ∣ c → order mem' c = (if c = b then v else order mem c) ∧ tag mem' c = tag mem c ∧
        nxtBlock mem' c = nxtBlock mem c ∧ prvBlock mem' c = prvBlock mem c := by
  refine ⟨_,if_pos hv,fun c hc => ⟨?_,?_,?_,?_⟩⟩
  · unfold order write
    split_ifs with h
    · rw [high_setHigh _ (show v < 2^(32-(32-orderBits)) from hv),toNat_ofNat (by omega)]
    · rfl
  · rw [tag,write_first_second hb hc]
    rfl
  · have : nxt (write mem b (setHigh (32-orderBits) (mem b) v)) c = nxt mem c := by
      unfold nxt write
      split_ifs with h
      · rw [low_setHigh,h]
      · rfl
    rw [nxtBlock,this]
    rfl
  · rw [prvBlock,prv,write_first_second hb hc]
    rfl

lemma setTag_spec (mem : Words) (hb : 8 ∣ b) (v : Bool) (hc : 8 ∣ c) :
    order (setTag mem b v) c = order mem c ∧
      tag (setTag mem b v) c = (if c = b then v else tag mem c) ∧
      nxtBlock (setTag mem b v) c = nxtBlock mem c ∧ prvBlock (setTag mem b v) c = prvBlock mem c := by
  refine ⟨?_,?_,?_,?_⟩
  · rw [order,setTag,write_second_first hb hc]
    rfl
  · unfold tag setTag write
    by_cases h : c = b
    · have hv : v.toNat < 2^(32-(32-tagBits)) := by cases v <;> decide
      rw [if_pos (by omega),if_pos h,high_setHigh _ hv]
      cases v <;> decide
    · rw [if_neg (by omega),if_neg h]
  · rw [nxtBlock,nxt,setTag,write_second_first hb hc]
    rfl
  · have : prv (setTag mem b v) c = prv mem c := by
      unfold prv setTag write
      split_ifs with h
      · obtain rfl : c = b := by omega
        rw [low_setHigh]
      · rfl
    rw [prvBlock,this]
    rfl

end BuddyControlBlock

namespace Buddy

open BuddyControlBlock

variable {s s' : Buddy} {idx b : ℕ} {l k : List ℕ}

/-- The head and the links of a list of blocks. -/
def Lists (s : Buddy) (idx : ℕ) (l : List ℕ) : Prop :=
  s.bcbs idx = l.head? ∧ Segment (nxtBlock s.mem) (prvBlock s.mem) none l none

/-- What a change of the list `idx` with the nodes `l` leaves alone. -/
structure LinkChange (idx : ℕ) (l : List ℕ) (s s' : Buddy) : Prop where
  pool : s'.poolNbytes = s.poolNbytes
  heads : ∀ i, i ≠ idx → s'.bcbs i = s.bcbs i
  tags : SameTags s.mem s'.mem
  links : ∀ c, 8 ∣ c → c ∉ l →
    nxtBlock s'.mem c = nxtBlock s.mem c ∧ prvBlock s'.mem c = prvBlock s.mem c

/-- Offsets of blocks in address order. -/
structure Ordered (l : List ℕ) : Prop where
  sorted : l.Pairwise (· < ·)
  aligned : ∀ x ∈ l, 8 ∣ x
  bounded : ∀ x ∈ l, x < 2^27

lemma Ordered.nodup (h : Ordered l) : l.Nodup := h.sorted.imp (fun hab => Nat.ne_of_lt hab)

lemma LinkChange.lists {i : ℕ} {n : List ℕ} (h : LinkChange idx n s s') (hi : i ≠ idx)
    (hl : Ordered l) (hdis : ∀ x ∈ l, x ∉ n) (hs : Lists s i l) : Lists s' i l :=
  ⟨(h.heads i hi).trans hs.1,hs.2.congr (fun x hx => h.links x (hl.aligned x hx) (hdis x hx))⟩

/-- The scan stops at the last block below `b`. -/
lemma scan_spec {mem : Words} {x n : ℕ} (hn : l.length < n)
    (hseg : Segment (nxtBlock mem) (prvBlock mem) none (x::(l++k)) none)
    (hl : ∀ y ∈ l, y < b) (hk : ∀ y ∈ k, b < y) :
    scan mem b n x (l++k).head? = some ((x::l).getLast (by simp),k.head?) := by
  have key : ∀ {p : Option ℕ} {x n : ℕ}, l.length < n →
      Segment (nxtBlock mem) (prvBlock mem) p (x::(l++k)) none →
      scan mem b n x (l++k).head? = some ((x::l).getLast (by simp),k.head?) := by
    clear hseg hn
    induction l with
    | nil =>
      intro p x n hn hseg
      obtain ⟨n,rfl⟩ := Nat.exists_eq_succ_of_ne_zero (show n ≠ 0 by simp at hn; omega)
      cases k with
      | nil => rfl
      | cons y k =>
        have := hk y (by simp)
        simp [scan,show ¬ y < b by omega]
    | cons y l ih =>
      intro p x n hn hseg
      obtain ⟨n,rfl⟩ := Nat.exists_eq_succ_of_ne_zero (show n ≠ 0 by simp at hn; omega)
      obtain ⟨_,hx,hseg'⟩ := hseg
      have hy := hseg'.2.1
      have hyb := hl y (by simp)
      have hx : nxtBlock mem x = some y := by simpa using hx
      have hy : nxtBlock mem y = (l++k).head? := by simpa using hy
      have ih' := ih (fun z hz => hl z (by simp [hz])) (x := y) (n := n)
        (by simp only [List.length_cons,Nat.succ_eq_add_one] at hn; omega) hseg'
      simp only [List.cons_append,List.head?_cons,Nat.succ_eq_add_one,scan,hyb,if_true,hx,
        Option.bind_some,hy,ih']
      rw [List.getLast_cons_cons]
  exact key hn hseg

lemma link_spec (mem : Words) {x : ℕ} {q : Option ℕ} (hx : 8 ∣ x) (hb : 8 ∣ b) (hxb : x < b)
    (hb27 : b < 2^27) (hq : ∀ y ∈ q, 8 ∣ y ∧ b < y ∧ y < 2^27) :
    ∃ mem', link mem x b q = some mem' ∧ SameTags mem mem' ∧ ∀ c, 8 ∣ c →
      nxtBlock mem' c = (if c = b then q else if c = x then some b else nxtBlock mem c) ∧
      prvBlock mem' c = (if c = b then some x else if q = some c then some b else prvBlock mem c) := by
  obtain ⟨m1,e1,t1,l1⟩ := setNxtBlock_spec mem hx (q := some b) (by simpa using ⟨hxb,hb27⟩)
  obtain ⟨m2,e2,t2,l2⟩ := setPrvBlock_spec m1 hb hb27 (q := some x) (by simpa using hxb)
  obtain ⟨m3,e3,t3,l3⟩ := setNxtBlock_spec m2 hb (q := q) (fun y hy => (hq y hy).2)
  have hguard : (∀ y ∈ q, b < y) := fun y hy => (hq y hy).2.1
  cases q with
  | none =>
    refine ⟨m3,?_,(t1.trans t2).trans t3,fun c hc => ?_⟩
    · simp [link,hxb,e1,e2,e3,guard]
    · obtain ⟨a1,b1⟩ := l1 c hc
      obtain ⟨a2,b2⟩ := l2 c hc
      obtain ⟨a3,b3⟩ := l3 c hc
      refine ⟨?_,?_⟩
      · rw [b3,a2,b1]
      · rw [a3,b2,a1]
        simp
  | some y =>
    obtain ⟨hy,hby,hy27⟩ := hq y rfl
    obtain ⟨m4,e4,t4,l4⟩ := setPrvBlock_spec m3 hy hy27 (q := some b) (by simpa using hby)
    refine ⟨m4,?_,((t1.trans t2).trans t3).trans t4,fun c hc => ?_⟩
    · simp [link,hxb,hby,e1,e2,e3,e4,guard]
    · obtain ⟨a1,b1⟩ := l1 c hc
      obtain ⟨a2,b2⟩ := l2 c hc
      obtain ⟨a3,b3⟩ := l3 c hc
      obtain ⟨a4,b4⟩ := l4 c hc
      refine ⟨?_,?_⟩
      · rw [a4,b3,a2,b1]
      · rw [b4,a3,b2,a1]
        by_cases h1 : c = y
        · rw [if_pos h1,if_neg (by omega),if_pos (by rw [h1])]
        · rw [if_neg h1]
          simp [Ne.symm h1]

/-- The links that put `b` between the two parts of a list. -/
lemma lists_insert {s' : Buddy} (hs : Lists s idx (l++k)) (hl : Ordered (l++k)) (hb : b ∉ l++k)
    (hpool : s'.poolNbytes = s.poolNbytes) (hhead : s'.bcbs idx = (l++b::k).head?)
    (hheads : ∀ i, i ≠ idx → s'.bcbs i = s.bcbs i) (htags : SameTags s.mem s'.mem) (hb8 : 8 ∣ b)
    (hnxt : ∀ c, 8 ∣ c → nxtBlock s'.mem c =
      if c = b then k.head? else if l.getLast? = some c then some b else nxtBlock s.mem c)
    (hprv : ∀ c, 8 ∣ c → prvBlock s'.mem c =
      if c = b then l.getLast? else if k.head? = some c then some b else prvBlock s.mem c) :
    Lists s' idx (l++b::k) ∧ LinkChange idx (l++b::k) s s' := by
  refine ⟨⟨hhead,hs.2.insert hl.nodup ?_ ?_ ?_ ?_⟩,hpool,hheads,htags,?_⟩
  · rw [hnxt b hb8,if_pos rfl]
  · rw [hprv b hb8,if_pos rfl]
  · intro c hc
    rw [hnxt c (hl.aligned c hc),if_neg (fun h : c = b => hb (h ▸ hc))]
  · intro c hc
    rw [hprv c (hl.aligned c hc),if_neg (fun h : c = b => hb (h ▸ hc))]
  · intro c hc hnot
    simp only [List.mem_append,List.mem_cons,not_or] at hnot
    rw [hnxt c hc,hprv c hc,if_neg hnot.2.1,if_neg hnot.2.1,
      if_neg (fun h => hnot.1 (List.mem_of_getLast? h)),
      if_neg (fun h => hnot.2.2 (List.mem_of_head? h))]
    exact ⟨rfl,rfl⟩

/-- `_buddy_listInsert` puts the block at its place in the ordered list. -/
theorem listInsert_spec (hs : Lists s idx (l++k)) (hl : Ordered (l++k)) (hb : 8 ∣ b)
    (hb27 : b < 2^27) (hlb : ∀ x ∈ l, x < b) (hbk : ∀ x ∈ k, b < x)
    (hfuel : (l++k).length < s.poolNbytes) :
    ∃ s', s.listInsert idx b = some s' ∧ Lists s' idx (l++b::k) ∧ LinkChange idx (l++b::k) s s' := by
  have hnot : b ∉ l++k := by
    intro h
    rcases List.mem_append.mp h with h | h
    · exact lt_irrefl b (hlb b h)
    · exact lt_irrefl b (hbk b h)
  have hheads : ∀ i, i ≠ idx → (if i = idx then some b else s.bcbs i) = s.bcbs i :=
    fun i hi => if_neg hi
  cases l with
  | nil =>
    cases k with
    | nil =>
      obtain ⟨m1,e1,t1,l1⟩ := setNxtBlock_spec s.mem hb (q := none) (by simp)
      obtain ⟨m2,e2,t2,l2⟩ := setPrvBlock_spec m1 hb hb27 (q := none) (by simp)
      refine ⟨{s.setHead idx (some b) with mem := m2},?_,lists_insert hs hl hnot rfl ?_ hheads
        (t1.trans t2) hb ?_ ?_⟩
      · have e1 : setNxt s.mem b 0 = some m1 := e1
        have e2 : setPrv m1 b 0 = some m2 := e2
        have h0 : s.bcbs idx = none := hs.1
        simp [listInsert,h0,e1,e2]
      · simp [setHead]
      · intro c hc
        simp only [(l2 c hc).1,(l1 c hc).2]
        simp
      · intro c hc
        simp only [(l2 c hc).2,(l1 c hc).1]
        simp
    | cons y k =>
      have hby := hbk y (by simp)
      have hy := hl.aligned y (by simp)
      have hy27 := hl.bounded y (by simp)
      obtain ⟨m1,e1,t1,l1⟩ := setPrvBlock_spec s.mem hb hb27 (q := none) (by simp)
      obtain ⟨m2,e2,t2,l2⟩ := setNxtBlock_spec m1 hb (q := some y) (by simpa using ⟨hby,hy27⟩)
      obtain ⟨m3,e3,t3,l3⟩ := setPrvBlock_spec m2 hy hy27 (q := some b) (by simpa using hby)
      refine ⟨{s.setHead idx (some b) with mem := m3},?_,lists_insert hs hl hnot rfl ?_ hheads
        ((t1.trans t2).trans t3) hb ?_ ?_⟩
      · have e1 : setPrv s.mem b 0 = some m1 := e1
        have h0 : s.bcbs idx = some y := hs.1
        simp [listInsert,h0,hby,e1,e2,e3]
      · simp [setHead]
      · intro c hc
        simp only [(l3 c hc).1,(l2 c hc).2,(l1 c hc).1]
        simp
      · intro c hc
        simp only [(l3 c hc).2,(l2 c hc).1,(l1 c hc).2]
        by_cases h1 : c = y
        · rw [if_pos h1,if_neg (by omega),if_pos (by rw [h1]; rfl)]
        · rw [if_neg h1]
          simp [Ne.symm h1]
  | cons x l =>
    have hlen : l.length < s.poolNbytes := by
      simp only [List.length_append,List.length_cons] at hfuel
      omega
    have hscan := scan_spec hlen hs.2 (fun y hy => hlb y (by simp [hy])) hbk
    have hx : nxtBlock s.mem x = (l++k).head? := by simpa using hs.2.2.1
    have hlast : (x::l).getLast (by simp) ∈ x::l := List.getLast_mem _
    obtain ⟨m1,e1,t1,l1⟩ := link_spec s.mem (q := k.head?)
      (hl.aligned _ (List.mem_append_left k hlast)) hb (hlb _ hlast) hb27 (by
        intro y hy
        have hy := List.mem_of_head? hy
        exact ⟨hl.aligned y (List.mem_append_right _ hy),hbk y hy,
          hl.bounded y (List.mem_append_right _ hy)⟩)
    have hlast' : (x::l).getLast? = some ((x::l).getLast (by simp)) := List.getLast?_eq_some_getLast _
    refine ⟨{s with mem := m1},?_,lists_insert hs hl hnot rfl ?_ (fun _ _ => rfl) t1 hb ?_ ?_⟩
    · have h0 : s.bcbs idx = some x := hs.1
      have hxb := hlb x (by simp)
      simp only [listInsert,h0,show ¬ b < x by omega,if_false,hx,hscan,e1,Option.bind_eq_bind,
        Option.bind_some]
    · exact hs.1
    · intro c hc
      rw [(l1 c hc).1,hlast']
      simp [eq_comm]
    · intro c hc
      rw [(l1 c hc).2,hlast']

lemma relink_spec (mem : Words) (ord : ℕ) {p q : Option ℕ}
    (hq : ∀ y ∈ q, 8 ∣ y ∧ y < 2^27 ∧ order mem y = ord ∧ tag mem y = true ∧ ∀ x ∈ p, x < y) :
    ∃ mem', relink mem ord p q = some mem' ∧ SameTags mem mem' ∧ ∀ c, 8 ∣ c →
      nxtBlock mem' c = nxtBlock mem c ∧
      prvBlock mem' c = if q = some c then p else prvBlock mem c := by
  cases q with
  | none => exact ⟨mem,rfl,SameTags.refl _,fun c _ => ⟨rfl,by simp⟩⟩
  | some y =>
    obtain ⟨hy,hy27,hord,htag,hp⟩ := hq y rfl
    obtain ⟨m1,e1,t1,l1⟩ := setPrvBlock_spec mem hy hy27 hp
    refine ⟨m1,?_,t1,fun c hc => ⟨(l1 c hc).1,?_⟩⟩
    · simp [relink,hord,htag,guard,e1]
    · rw [(l1 c hc).2]
      simp [eq_comm]

/-- The links that take `b` out of a list. -/
lemma lists_remove {s' : Buddy} (hs : Lists s idx (l++b::k)) (hl : Ordered (l++b::k))
    (hpool : s'.poolNbytes = s.poolNbytes) (hhead : s'.bcbs idx = (l++k).head?)
    (hheads : ∀ i, i ≠ idx → s'.bcbs i = s.bcbs i) (htags : SameTags s.mem s'.mem)
    (hnxt : ∀ c, 8 ∣ c → nxtBlock s'.mem c =
      if l.getLast? = some c then k.head? else nxtBlock s.mem c)
    (hprv : ∀ c, 8 ∣ c → prvBlock s'.mem c =
      if k.head? = some c then l.getLast? else prvBlock s.mem c) :
    Lists s' idx (l++k) ∧ LinkChange idx (l++k) s s' := by
  have hal : ∀ c ∈ l++k, 8 ∣ c := by
    intro c hc
    refine hl.aligned c ?_
    simp only [List.mem_append,List.mem_cons] at hc ⊢
    tauto
  refine ⟨⟨hhead,hs.2.remove hl.nodup (fun c hc => hnxt c (hal c hc)) (fun c hc => hprv c (hal c hc))⟩,
    hpool,hheads,htags,?_⟩
  intro c hc hnot
  simp only [List.mem_append,not_or] at hnot
  rw [hnxt c hc,hprv c hc,if_neg (fun h => hnot.1 (List.mem_of_getLast? h)),
    if_neg (fun h => hnot.2 (List.mem_of_head? h))]
  exact ⟨rfl,rfl⟩

/-- `_buddy_listRemove` takes the block out of the list. -/
theorem listRemove_spec (hs : Lists s idx (l++b::k)) (hl : Ordered (l++b::k))
    (htag : ∀ x ∈ l++b::k, order s.mem x = order s.mem b ∧ tag s.mem x = true) :
    ∃ s', s.listRemove idx b = some s' ∧ Lists s' idx (l++k) ∧ LinkChange idx (l++k) s s' := by
  obtain ⟨hprv,hnxt⟩ := hs.2.mid
  have hsort := List.pairwise_append.mp hl.sorted
  have hright : ∀ y ∈ k, 8 ∣ y ∧ y < 2^27 ∧ b < y ∧ order s.mem y = order s.mem b ∧
      tag s.mem y = true := by
    intro y hy
    have hmem : y ∈ l++b::k := by simp [hy]
    exact ⟨hl.aligned y hmem,hl.bounded y hmem,(List.pairwise_cons.mp hsort.2.1).1 y hy,htag y hmem⟩
  rcases List.eq_nil_or_concat l with rfl | ⟨l',x,rfl⟩
  · obtain ⟨m1,e1,t1,l1⟩ := relink_spec s.mem (order s.mem b) (p := none)
      (q := k.head?) (by
        intro y hy
        obtain ⟨h1,h2,_,h4,h5⟩ := hright y (List.mem_of_head? hy)
        exact ⟨h1,h2,h4,h5,by simp⟩)
    refine ⟨{s.setHead idx k.head? with mem := m1},?_,lists_remove hs hl rfl ?_ (fun i hi => if_neg hi)
      t1 ?_ ?_⟩
    · have h0 : s.bcbs idx = some b := hs.1
      simp only [listRemove,h0,if_true,hnxt,e1,Option.bind_eq_bind,Option.bind_some]
    · simp [setHead]
    · intro c hc
      rw [(l1 c hc).1]
      simp
    · intro c hc
      rw [(l1 c hc).2]
      simp
  · simp only [List.concat_eq_append] at *
    have hx : x ∈ l'++[x]++b::k := by simp
    have hxb : x < b := hsort.2.2 x (by simp) b (by simp)
    have hx8 := hl.aligned x hx
    have hprv : prvBlock s.mem b = some x := by simpa using hprv
    have hhead : ∀ r : List ℕ, (l'++[x]++r).head? = some ((l'++[x]).head (by simp)) := by
      intro r
      rw [List.head?_append,List.head?_eq_some_head (by simp)]
      rfl
    have h0 : s.bcbs idx ≠ some b := by
      rw [hs.1,hhead]
      intro h
      have hb := hsort.2.2 _ (List.head_mem (show l'++[x] ≠ [] by simp)) b (by simp)
      rw [Option.some.inj h] at hb
      exact lt_irrefl b hb
    obtain ⟨m1,e1,t1,l1⟩ := setNxtBlock_spec s.mem hx8 (q := k.head?) (by
      intro y hy
      obtain ⟨_,h2,h3,_⟩ := hright y (List.mem_of_head? hy)
      exact ⟨hxb.trans h3,h2⟩)
    obtain ⟨m2,e2,t2,l2⟩ := relink_spec m1 (order s.mem b) (p := some x)
      (q := k.head?) (by
        intro y hy
        obtain ⟨h1,h2,h3,h4,h5⟩ := hright y (List.mem_of_head? hy)
        obtain ⟨h6,h7⟩ := t1 y h1
        exact ⟨h1,h2,h6.trans h4,h7.trans h5,by simpa using hxb.trans h3⟩)
    refine ⟨{s with mem := m2},?_,lists_remove hs hl rfl ?_ (fun _ _ => rfl) (t1.trans t2) ?_ ?_⟩
    · obtain ⟨hord,hxt⟩ := htag x hx
      simp only [listRemove,h0,if_false,hprv,hord,hxt,hnxt,e1,e2,guard,if_true,Option.bind_eq_bind,
        Option.bind_some,Option.pure_def]
    · rw [hs.1,hhead,hhead]
    · intro c hc
      rw [(l2 c hc).1,(l1 c hc).2]
      simp [eq_comm]
    · intro c hc
      rw [(l2 c hc).2,(l1 c hc).1]
      simp

end Buddy

end Phantom
