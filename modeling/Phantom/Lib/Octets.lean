import Mathlib.Algebra.Group.Nat.Defs
import Mathlib.Tactic.Common

/-! Words of 32 bits as four octets: the other order of the octets, and the leading bits of words. -/
namespace Phantom

/-- The word with its octets in the opposite order. -/
def swapOctets (x : BitVec 32) : BitVec 32 :=
  x.extractLsb' 0 8++x.extractLsb' 8 8++x.extractLsb' 16 8++x.extractLsb' 24 8

/-- Two words have the same `n` leading bits. -/
def SamePrefix {w : ℕ} (n : ℕ) (x y : BitVec w) : Prop := ∀ i<n, x.getMsbD i=y.getMsbD i

/-- The number of leading bits in which two words agree. -/
def commonPrefix {w : ℕ} (x y : BitVec w) : ℕ :=
  ((List.range w).takeWhile fun i ↦ x.getMsbD i=y.getMsbD i).length

/-- An octet, where 0 is the least significant one. -/
def octet (x : BitVec 32) (i : ℕ) : ℕ := x.toNat/2^(8*i)%256

/-- The octets of a word compare as less or equal, the most significant ones first. -/
def OctetsLE (x y : BitVec 32) : Prop :=
  octet x 3<octet y 3 ∨ octet x 3=octet y 3 ∧
    (octet x 2<octet y 2 ∨ octet x 2=octet y 2 ∧
      (octet x 1<octet y 1 ∨ octet x 1=octet y 1 ∧ octet x 0 ≤ octet y 0))

variable {x y : BitVec 32}

lemma octet_lt (x : BitVec 32) (i : ℕ) : octet x i<256 := Nat.mod_lt _ (by decide)

lemma toNat_eq_octets (x : BitVec 32) :
    x.toNat=octet x 0+256*(octet x 1+256*(octet x 2+256*octet x 3)) := by
  have hx := x.isLt
  have h₁ : x.toNat/2^(8*2)=x.toNat/2^(8*1)/256 :=
    (Nat.div_div_eq_div_mul _ (2^(8*1)) 256).symm
  have h₂ : x.toNat/2^(8*3)=x.toNat/2^(8*2)/256 :=
    (Nat.div_div_eq_div_mul _ (2^(8*2)) 256).symm
  unfold octet
  omega

lemma octetsLE_iff : OctetsLE x y ↔ x.toNat ≤ y.toNat := by
  have hx := octet_lt x
  have hy := octet_lt y
  have hx₀ := hx 0
  have hx₁ := hx 1
  have hx₂ := hx 2
  have hy₀ := hy 0
  have hy₁ := hy 1
  have hy₂ := hy 2
  rw [toNat_eq_octets x,toNat_eq_octets y]
  unfold OctetsLE
  omega

lemma getLsbD_swapOctets {i : ℕ} (hi : i<32) :
    (swapOctets x).getLsbD i=x.getLsbD (24-i/8*8+i%8) := by
  unfold swapOctets
  simp only [BitVec.getLsbD_append,BitVec.getLsbD_extractLsb']
  have hcases : i<8 ∨ (8 ≤ i ∧ i<16) ∨ (16 ≤ i ∧ i<24) ∨ 24 ≤ i := by omega
  rcases hcases with h | h | h | h <;> simp (disch := omega) only [if_pos,if_neg] <;>
    rw [decide_eq_true (by omega),Bool.true_and] <;> exact congrArg _ (by omega)

@[simp] lemma swapOctets_swapOctets : swapOctets (swapOctets x)=x := by
  apply BitVec.eq_of_getLsbD_eq
  intro i hi
  rw [getLsbD_swapOctets hi,getLsbD_swapOctets (by omega)]
  exact congrArg _ (by omega)

lemma swapOctets_inj : swapOctets x=swapOctets y ↔ x=y := by
  refine ⟨fun h ↦ ?_,congrArg _⟩
  rw [← swapOctets_swapOctets (x := x),h,swapOctets_swapOctets]

lemma swapOctets_and : swapOctets (x &&& y)=swapOctets x &&& swapOctets y := by
  apply BitVec.eq_of_getLsbD_eq
  intro i hi
  rw [BitVec.getLsbD_and,getLsbD_swapOctets hi,getLsbD_swapOctets hi,getLsbD_swapOctets hi,
    BitVec.getLsbD_and]

section
variable {w n : ℕ} {x y : BitVec w}

/-- Words that agree under a mask of leading ones have the leading bits in common. -/
lemma and_mask_eq_iff (hn : n ≤ w) : x &&& BitVec.allOnes w <<< (w-n)=y &&& BitVec.allOnes w <<< (w-n) ↔
    SamePrefix n x y := by
  have hmask : ∀ i, i<w → (BitVec.allOnes w <<< (w-n)).getMsbD i=decide (i<n) := by
    intro i hi
    rw [BitVec.getMsbD_shiftLeft,BitVec.getMsbD_allOnes]
    exact decide_eq_decide.mpr (by omega)
  constructor
  · intro h i hi
    have hbit := congrArg (fun z ↦ z.getMsbD i) h
    simp only [BitVec.getMsbD_and,hmask i (by omega),hi,decide_true,Bool.and_true] at hbit
    exact hbit
  · intro h
    apply BitVec.eq_of_getMsbD_eq
    intro i hi
    rw [BitVec.getMsbD_and,BitVec.getMsbD_and,hmask i hi]
    by_cases hin : i<n
    · rw [h i hin]
    · simp [hin]

end

end Phantom
