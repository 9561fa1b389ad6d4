import Mathlib.Algebra.Order.Ring.Rat
import Mathlib.Algebra.Order.WithTop.Untop0
import Mathlib.Data.Int.Log
import Mathlib.Data.Rat.Floor
import Mathlib.Tactic.Linarith
import Mathlib.Tactic.Positivity

/-! Rounding to the nearest double, with ties to even. -/
namespace Phantom.Binary64

/-- A double that is not negative, and may be infinite. -/
abbrev Double := WithTop ℚ

/-- The nearest integer, and the even one of two that are as near. -/
def roundHalfEven (x : ℚ) : ℤ :=
  if x-⌊x⌋<1/2 ∨ x-⌊x⌋=1/2 ∧ ⌊x⌋%2=0 then ⌊x⌋ else ⌊x⌋+1

/-- The nearest number of 53 significant bits, or of fewer where the exponent has no more room. -/
def nearest (x : ℚ) : ℚ :=
  let e := max (Int.log 2 |x|-52) (-1074)
  roundHalfEven (x/2^e)*2^e

def roundDouble (x : ℚ) : Double := if 2^1024 ≤ nearest x then ⊤ else nearest x

/-- The sum of a double and a finite one. -/
def add (c : Double) (x : ℚ) : Double :=
  match c with
  | ⊤ => ⊤
  | (c : ℚ) => roundDouble (c+x)

lemma le_roundHalfEven {m : ℤ} {x : ℚ} (h : m ≤ x) : m ≤ roundHalfEven x := by
  have hfloor : m ≤ ⌊x⌋ := Int.le_floor.mpr h
  unfold roundHalfEven
  split_ifs <;> omega

/-- A natural number of at most 53 bits is not rounded away. -/
lemma le_nearest {n : ℕ} {x : ℚ} (hn : n ≤ 2^52) (h : n ≤ x) : n ≤ nearest x := by
  have hx : 0 ≤ x := n.cast_nonneg.trans h
  unfold nearest
  dsimp only
  rw [abs_of_nonneg hx]
  obtain ⟨k,hk⟩ | ⟨k,hk⟩ : (∃ k : ℕ, max (Int.log 2 x-52) (-1074)=-k) ∨
      ∃ k : ℕ, Int.log 2 x-52=k ∧ max (Int.log 2 x-52) (-1074)=k := by
    rcases le_total (max (Int.log 2 x-52) (-1074)) 0 with hle | hle
    · exact Or.inl ⟨(max (Int.log 2 x-52) (-1074)).natAbs,by omega⟩
    · exact Or.inr ⟨(max (Int.log 2 x-52) (-1074)).natAbs,by omega,by omega⟩
  · have hint : ((n*2^k : ℤ) : ℚ) ≤ x*2^k := by
      push_cast
      gcongr
    rw [hk,zpow_neg,zpow_natCast,div_inv_eq_mul,← div_eq_mul_inv,le_div_iff₀ (by positivity)]
    exact_mod_cast le_roundHalfEven hint
  · have hpos : 0<x := by
      refine hx.lt_of_ne ?_
      rintro rfl
      rw [Int.log_zero_right] at hk
      omega
    have hle : (2 : ℚ)^(52+k) ≤ x := by
      have := Int.zpow_log_le_self (b := 2) (by norm_num) hpos
      rwa [show Int.log 2 x=((52+k : ℕ) : ℤ) by push_cast; omega,zpow_natCast] at this
    have hint : ((2^52 : ℤ) : ℚ) ≤ x/2^k := by
      rw [le_div_iff₀ (by positivity),Int.cast_pow,Int.cast_ofNat,← pow_add]
      exact hle
    have hround := le_roundHalfEven hint
    rw [hk.2,zpow_natCast]
    calc (n : ℚ) ≤ 2^52 := by exact_mod_cast hn
      _ ≤ roundHalfEven (x/2^k) := by exact_mod_cast hround
      _ ≤ roundHalfEven (x/2^k)*2^k := by
        refine le_mul_of_one_le_right ?_ (one_le_pow₀ (by norm_num))
        exact_mod_cast (by norm_num : (0 : ℤ) ≤ 2^52).trans hround

/-- A sum stays above such a number. -/
lemma le_add {n : ℕ} {c : Double} {x : ℚ} (hn : n ≤ 2^52) (h : ∀ y : ℚ, c=y → n ≤ y+x) :
    ((n : ℚ) : Double) ≤ add c x := by
  cases c using WithTop.recTopCoe with
  | top => exact le_top
  | coe c =>
    have hle := le_nearest hn (h c rfl)
    change ((n : ℚ) : Double) ≤ roundDouble (c+x)
    unfold roundDouble
    split_ifs
    · exact le_top
    · exact WithTop.coe_le_coe.mpr hle

end Phantom.Binary64
