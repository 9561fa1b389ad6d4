import Phantom.Host.PluginSpace

/-! What the regions say about each address: how the plugin has mapped it, and whether it is mapped
into Shadow. The base in Shadow is left out, and so the lists that the handlers leave differ from
the old ones only where an address was overwritten. -/
namespace Phantom
open IntervalList PageTable IntervalMap

def Region.shape (r : Region) : Area × Bool := (r.area,r.shadowBase.isSome)

namespace MemoryMapper

variable {P : ℕ} {l k : List (Entry Region)} {s e x prot : ℕ} {m : MemoryMapper}

def shapeAt (l : List (Entry Region)) (x : ℕ) : Option (Area × Bool) := (value l x).map Region.shape

lemma shapeAt_eq_some (hs : Sorted l) {shape : Area × Bool} :
    shapeAt l x=some shape ↔ ∃ a ∈ l, a.Contains x ∧ a.val.shape=shape := by
  simp only [shapeAt,Option.map_eq_some_iff,hs.value_eq_some_iff]
  constructor
  · rintro ⟨r,⟨a,ha,hx,rfl⟩,hshape⟩
    exact ⟨a,ha,hx,hshape⟩
  · rintro ⟨a,ha,hx,hshape⟩
    exact ⟨a.val,⟨a,ha,hx,rfl⟩,hshape⟩

lemma shapeAt_of_mem (hs : Sorted l) {a : Entry Region} (ha : a ∈ l) (hx : a.Contains x) :
    shapeAt l x=some a.val.shape := (shapeAt_eq_some hs).mpr ⟨a,ha,hx,rfl⟩

lemma shapeAt_overwrite (hse : s<e) (v : Option Region) (hs : Sorted l) :
    shapeAt (overwrite s e v l) x=if s ≤ x ∧ x<e then v.map Region.shape else shapeAt l x := by
  rw [shapeAt,value_overwrite hse v hs]
  split_ifs <;> rfl

/-- The bounds and the shape of an entry. -/
def key (a : Entry Region) : ℕ × ℕ × (Area × Bool) := (a.lo,a.hi,a.val.shape)

lemma shapeAt_eq_find (l : List (Entry Region)) (x : ℕ) : shapeAt l x=
    ((l.map key).find? fun c ↦ decide (c.1 ≤ x ∧ x<c.2.1)).map fun c ↦ c.2.2 := by
  induction l with
  | nil => rfl
  | cons a l ih =>
    simp only [shapeAt,value,lookup,List.map_cons,List.find?_cons] at ih ⊢
    by_cases hx : a.lo ≤ x ∧ x<a.hi
    · simp [key,Entry.Contains,hx]
    · simpa [key,Entry.Contains,hx] using ih

lemma shapeAt_congr (h : l.map key=k.map key) : shapeAt l=shapeAt k := by
  funext x
  rw [shapeAt_eq_find,shapeAt_eq_find,h]

lemma advance_shape (n : ℕ) (r : Region) : (r.advance n).shape=r.shape := by
  cases r with
  | mk base prot sharing path => cases base <;> rfl

lemma map_key_cutRight (e : ℕ) (l : List (Entry Region)) :
    (l.filterMap (cutRight e)).map key=(l.filterMap (rightPart e)).map key := by
  rw [List.map_filterMap,List.map_filterMap]
  congr 1
  funext a
  unfold cutRight rightPart
  split_ifs
  · simp [key,advance_shape]
  · rfl

lemma shapeAt_cleared (hse : s<e) (v : Option Region) (hs : Sorted l) :
    shapeAt (cleared s e (v.map (Entry.mk s e)).toList l) x=
      if s ≤ x ∧ x<e then v.map Region.shape else shapeAt l x := by
  have hkey : (cleared s e (v.map (Entry.mk s e)).toList l).map key=(overwrite s e v l).map key := by
    simp [cleared,overwrite,map_key_cutRight]
  rw [shapeAt_congr hkey,shapeAt_overwrite hse v hs]

lemma shapeAt_reprotected (hse : s<e) (hs : Sorted l) :
    shapeAt (halfCleared s e (l.filterMap (cutMid s e prot)) l []) x=
      if s ≤ x ∧ x<e then (shapeAt l x).map fun shape ↦ ({shape.1 with prot := prot},shape.2)
      else shapeAt l x := by
  have hs' : Sorted (halfCleared s e (l.filterMap (cutMid s e prot)) l []) :=
    halfCleared_cutMid_sorted prot hse (by simpa using hs)
  have hparts : ∀ b, b ∈ halfCleared s e (l.filterMap (cutMid s e prot)) l [] ↔
      (∃ a ∈ l, leftPart s a=some b) ∨ (∃ a ∈ l, cutMid s e prot a=some b) ∨
        ∃ a ∈ l, cutRight e a=some b := by
    intro b
    simp [halfCleared]
  apply Option.ext
  intro shape
  rw [shapeAt_eq_some hs']
  constructor
  · rintro ⟨b,hb,hx,rfl⟩
    rcases (hparts b).mp hb with ⟨a,ha,hab⟩ | ⟨a,ha,hab⟩ | ⟨a,ha,hab⟩
    · obtain ⟨hlt,rfl⟩ := leftPart_eq_some.mp hab
      obtain ⟨hlo,hhi⟩ := lt_min_iff.mp hx.2
      rw [if_neg (by omega),shapeAt_of_mem hs ha ⟨hx.1,hlo⟩]
    · obtain ⟨hlt,rfl⟩ := cutMid_eq_some.mp hab
      obtain ⟨hlo,hge⟩ := max_le_iff.mp hx.1
      obtain ⟨hhi,hlt⟩ := lt_min_iff.mp hx.2
      rw [if_pos ⟨hge,hlt⟩,shapeAt_of_mem hs ha ⟨hlo,hhi⟩]
      simp [Region.shape,Region.area,Region.advance]
    · obtain ⟨hlt,rfl⟩ := cutRight_eq_some.mp hab
      obtain ⟨hlo,he⟩ := max_le_iff.mp hx.1
      rw [if_neg (by omega),shapeAt_of_mem hs ha ⟨hlo,hx.2⟩,advance_shape]
  · intro h
    split_ifs at h with hx
    · obtain ⟨shape',hshape,rfl⟩ := Option.map_eq_some_iff.mp h
      obtain ⟨a,ha,hax,rfl⟩ := (shapeAt_eq_some hs).mp hshape
      have hcut : cutMid s e prot a=some ⟨max a.lo s,min a.hi e,
          {a.val.advance (max a.lo s-a.lo) with prot := prot}⟩ :=
        cutMid_eq_some.mpr ⟨(max_le hax.1 hx.1).trans_lt (lt_min hax.2 hx.2),rfl⟩
      refine ⟨_,(hparts _).mpr (Or.inr (Or.inl ⟨a,ha,hcut⟩)),?_,?_⟩
      · exact ⟨max_le hax.1 hx.1,lt_min hax.2 hx.2⟩
      · simp [Region.shape,Region.area,Region.advance]
    · obtain ⟨a,ha,hax,rfl⟩ := (shapeAt_eq_some hs).mp h
      by_cases hlt : x<s
      · have hleft : leftPart s a=some {a with hi := min a.hi s} :=
          leftPart_eq_some.mpr ⟨hax.1.trans_lt hlt,rfl⟩
        exact ⟨_,(hparts _).mpr (Or.inl ⟨a,ha,hleft⟩),⟨hax.1,lt_min hax.2 hlt⟩,rfl⟩
      · have hge : e ≤ x := by omega
        have hright : cutRight e a=some ⟨max a.lo e,a.hi,a.val.advance (max a.lo e-a.lo)⟩ :=
          cutRight_eq_some.mpr ⟨hge.trans_lt hax.2,rfl⟩
        exact ⟨_,(hparts _).mpr (Or.inr (Or.inr ⟨a,ha,hright⟩)),⟨max_le hax.1 hge,hax.2⟩,
          advance_shape _ _⟩

lemma get_map_area (hs : Sorted l) (hm : m.regions=ofEntries l) (x : ℕ) :
    (m.regions.get x).map (fun e ↦ e.2.area)=(shapeAt l x).map Prod.fst := by
  rw [hm,get_ofEntries hs]
  simp only [shapeAt,value,Option.map_map]
  rfl

/-! Entries of whole pages. -/

/-- An entry of whole pages, whose protection has no other bits than the known ones. -/
structure Paged (P : ℕ) (a : Entry Region) : Prop where
  lo : a.lo%P=0
  hi : a.hi%P=0
  prot : a.val.prot<8

lemma max_mod {a b : ℕ} (ha : a%P=0) (hb : b%P=0) : max a b%P=0 := by
  rcases max_choice a b with h | h <;> rw [h] <;> assumption

lemma min_mod {a b : ℕ} (ha : a%P=0) (hb : b%P=0) : min a b%P=0 := by
  rcases min_choice a b with h | h <;> rw [h] <;> assumption

lemma Paged.leftPart {a b : Entry Region} (h : Paged P a) (hsP : s%P=0) (hab : leftPart s a=some b) :
    Paged P b := by
  obtain ⟨-,rfl⟩ := leftPart_eq_some.mp hab
  exact ⟨h.lo,min_mod h.hi hsP,h.prot⟩

lemma Paged.rightPart {a b : Entry Region} (h : Paged P a) (heP : e%P=0) (hab : rightPart e a=some b) :
    Paged P b := by
  obtain ⟨-,rfl⟩ := rightPart_eq_some.mp hab
  exact ⟨max_mod h.lo heP,h.hi,h.prot⟩

lemma Paged.cutRight {a b : Entry Region} (h : Paged P a) (heP : e%P=0) (hab : cutRight e a=some b) :
    Paged P b := by
  obtain ⟨-,rfl⟩ := cutRight_eq_some.mp hab
  exact ⟨max_mod h.lo heP,h.hi,h.prot⟩

lemma Paged.cutMid {a b : Entry Region} (h : Paged P a) (hsP : s%P=0) (heP : e%P=0) (hprot : prot<8)
    (hab : cutMid s e prot a=some b) : Paged P b := by
  obtain ⟨-,rfl⟩ := cutMid_eq_some.mp hab
  exact ⟨max_mod h.lo hsP,min_mod h.hi heP,hprot⟩

variable {v : Option Region}

lemma paged_overwrite (h : ∀ a ∈ l, Paged P a) (hsP : s%P=0) (heP : e%P=0)
    (hv : ∀ r, v=some r → r.prot<8) : ∀ b ∈ overwrite s e v l, Paged P b := by
  simp only [overwrite,List.mem_append,List.mem_filterMap,Option.mem_toList,Option.map_eq_some_iff]
  rintro b (⟨a,ha,hab⟩ | ⟨r,hr,rfl⟩ | ⟨a,ha,hab⟩)
  · exact (h a ha).leftPart hsP hab
  · exact ⟨hsP,heP,hv r hr⟩
  · exact (h a ha).rightPart heP hab

lemma paged_cleared (h : ∀ a ∈ l, Paged P a) (hsP : s%P=0) (heP : e%P=0)
    (hv : ∀ r, v=some r → r.prot<8) :
    ∀ b ∈ cleared s e (v.map (Entry.mk s e)).toList l, Paged P b := by
  simp only [cleared,List.mem_append,List.mem_filterMap,Option.mem_toList,Option.map_eq_some_iff]
  rintro b (⟨a,ha,hab⟩ | ⟨r,hr,rfl⟩ | ⟨a,ha,hab⟩)
  · exact (h a ha).leftPart hsP hab
  · exact ⟨hsP,heP,hv r hr⟩
  · exact (h a ha).cutRight heP hab

lemma paged_reprotected (h : ∀ a ∈ l, Paged P a) (hsP : s%P=0) (heP : e%P=0) (hprot : prot<8) :
    ∀ b ∈ halfCleared s e (l.filterMap (cutMid s e prot)) l [], Paged P b := by
  simp only [halfCleared,List.append_nil,List.filterMap_nil,List.mem_append,List.mem_filterMap]
  rintro b (⟨a,ha,hab⟩ | ⟨a,ha,hab⟩ | ⟨a,ha,hab⟩)
  · exact (h a ha).leftPart hsP hab
  · exact (h a ha).cutMid hsP heP hprot hab
  · exact (h a ha).cutRight heP hab

end MemoryMapper

end Phantom
