import Mathlib.Algebra.Order.Round
import Mathlib.Analysis.Real.Sqrt
import Mathlib.Tactic.FieldSimp
import Mathlib.Tactic.Linarith
import Mathlib.Tactic.Positivity

/-! A natural number over a square root, rounded to the nearest integer. -/
namespace Phantom

/-- `a/√c`, rounded to the nearest integer. -/
def roundDivSqrt (a c : ℕ) : ℕ := ((4*a^2/c).sqrt+1)/2

lemma floor_two_mul_div_sqrt (a : ℕ) {c : ℕ} (hc : 0<c) :
    ⌊2*((a : ℝ)/√c)⌋=((4*a^2/c).sqrt : ℤ) := by
  have hcr : (0 : ℝ)<c := Nat.cast_pos.mpr hc
  have hx : (0 : ℝ) ≤ 2*((a : ℝ)/√c) := by positivity
  have hsq : (2*((a : ℝ)/√c))^2*c=4*a^2 := by
    rw [mul_pow,div_pow,Real.sq_sqrt hcr.le]
    field_simp
    ring
  generalize 2*((a : ℝ)/√c)=x at hx hsq
  rw [Int.floor_eq_iff]
  constructor
  · have hle : (4*a^2/c).sqrt^2*c ≤ 4*a^2 :=
      (Nat.mul_le_mul_right c (Nat.sqrt_le' _)).trans (Nat.div_mul_le_self _ _)
    have hler : ((4*a^2/c).sqrt : ℝ)^2*c ≤ x^2*c := by
      rw [hsq]
      exact_mod_cast hle
    exact_mod_cast abs_le_of_sq_le_sq' (le_of_mul_le_mul_right hler hcr) hx |>.2
  · have hlt : 4*a^2<((4*a^2/c).sqrt+1)^2*c :=
      (Nat.div_lt_iff_lt_mul hc).mp (Nat.lt_succ_sqrt' _)
    have hltr : x^2*c<((4*a^2/c).sqrt+1 : ℝ)^2*c := by
      rw [hsq]
      exact_mod_cast hlt
    exact_mod_cast lt_of_pow_lt_pow_left₀ 2 (by positivity) (lt_of_mul_lt_mul_right hltr hcr.le)

/-- The rounding is that of the real quotient. -/
theorem roundDivSqrt_eq_round (a : ℕ) {c : ℕ} (hc : 0<c) :
    (roundDivSqrt a c : ℤ)=round ((a : ℝ)/√c) := by
  have hfloor := floor_two_mul_div_sqrt a hc
  obtain ⟨hle,hlt⟩ := Int.floor_eq_iff.mp hfloor
  rw [round_eq]
  symm
  unfold roundDivSqrt
  generalize (4*a^2/c).sqrt=s at hle hlt
  have hlow : 2*((s+1)/2) ≤ s+1 := by omega
  have hhigh : s ≤ 2*((s+1)/2) := by omega
  generalize (s+1)/2=n at hlow hhigh
  have hlowr : 2*(n : ℝ) ≤ s+1 := by exact_mod_cast hlow
  have hhighr : (s : ℝ) ≤ 2*n := by exact_mod_cast hhigh
  rw [Int.floor_eq_iff]
  push_cast at hle hlt ⊢
  constructor <;> linarith

lemma abs_roundDivSqrt_le (a : ℕ) {c : ℕ} (hc : 0<c) :
    |(a : ℝ)/√c-roundDivSqrt a c| ≤ 1/2 := by
  have h := abs_sub_round ((a : ℝ)/√c)
  rw [← roundDivSqrt_eq_round a hc] at h
  exact_mod_cast h

@[simp] lemma roundDivSqrt_one (a : ℕ) : roundDivSqrt a 1=a := by
  unfold roundDivSqrt
  rw [Nat.div_one,show 4*a^2=(2*a)*(2*a) by ring,Nat.sqrt_eq]
  omega

lemma roundDivSqrt_add_lt {a b c : ℕ} (hb : 5 ≤ b) (hc : 2 ≤ c) :
    roundDivSqrt (b+a) c<b+roundDivSqrt a c := by
  have hpos : 0<c := by omega
  have hbr : (5 : ℝ) ≤ b := by exact_mod_cast hb
  have hroot : (4/3 : ℝ) ≤ √c := by
    apply Real.le_sqrt_of_sq_le
    have hcr : (2 : ℝ) ≤ c := by exact_mod_cast hc
    linarith
  have hshort : (b : ℝ)/√c ≤ b*(3/4) := by
    rw [div_le_iff₀ (by linarith)]
    nlinarith
  have hsum := abs_le.mp (abs_roundDivSqrt_le (b+a) hpos)
  have hpart := abs_le.mp (abs_roundDivSqrt_le a hpos)
  have hlt : (roundDivSqrt (b+a) c : ℝ)<b+roundDivSqrt a c := by
    rw [Nat.cast_add,add_div] at hsum
    linarith [hsum.1,hpart.2]
  exact_mod_cast hlt

end Phantom
