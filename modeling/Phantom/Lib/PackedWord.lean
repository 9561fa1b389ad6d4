import Mathlib.Tactic

/-! Two numbers packed into one 32 bit word, the lower one in the first `k` bits. -/
namespace Phantom.PackedWord

def lowMask (k : ℕ) : BitVec 32 := BitVec.ofNat 32 (2^k-1)

def low (k : ℕ) (w : BitVec 32) : BitVec 32 := w &&& lowMask k
def high (k : ℕ) (w : BitVec 32) : BitVec 32 := w >>> k
def setLow (k : ℕ) (w : BitVec 32) (v : ℕ) : BitVec 32 := (w &&& ~~~lowMask k) ||| BitVec.ofNat 32 v
def setHigh (k : ℕ) (w : BitVec 32) (v : ℕ) : BitVec 32 := (w &&& lowMask k) ||| (BitVec.ofNat 32 v <<< k)

lemma getLsbD_lowMask (k i : ℕ) : (lowMask k).getLsbD i = (decide (i < 32) && decide (i < k)) := by
  rw [lowMask,BitVec.getLsbD_ofNat,Nat.testBit_two_pow_sub_one]

lemma getLsbD_ofNat_ge {v k i : ℕ} (h : v < 2^k) (hi : k ≤ i) :
    (BitVec.ofNat 32 v).getLsbD i = false := by
  rw [BitVec.getLsbD_ofNat,
    Nat.testBit_lt_two_pow (h.trans_le (Nat.pow_le_pow_right (by norm_num) hi)),Bool.and_false]

lemma high_setHigh {k v : ℕ} (w : BitVec 32) (hv : v < 2^(32-k)) :
    high k (setHigh k w v) = BitVec.ofNat 32 v := by
  refine BitVec.eq_of_getLsbD_eq (fun i hi => ?_)
  simp only [high,setHigh,BitVec.getLsbD_ushiftRight,BitVec.getLsbD_or,BitVec.getLsbD_and,
    getLsbD_lowMask,BitVec.getLsbD_shiftLeft]
  by_cases h : k+i < 32
  · simp [h]
  · rw [getLsbD_ofNat_ge hv (show 32-k ≤ i by omega)]
    simp [h]

lemma low_setHigh (k : ℕ) (w : BitVec 32) (v : ℕ) : low k (setHigh k w v) = low k w := by
  refine BitVec.eq_of_getLsbD_eq (fun i hi => ?_)
  simp only [low,setHigh,BitVec.getLsbD_or,BitVec.getLsbD_and,getLsbD_lowMask,
    BitVec.getLsbD_shiftLeft]
  by_cases h : i < k <;> simp [h]

lemma high_setLow {k v : ℕ} (w : BitVec 32) (hv : v < 2^k) : high k (setLow k w v) = high k w := by
  refine BitVec.eq_of_getLsbD_eq (fun i hi => ?_)
  simp only [high,setLow,BitVec.getLsbD_ushiftRight,BitVec.getLsbD_or,BitVec.getLsbD_and,
    BitVec.getLsbD_not,getLsbD_lowMask]
  rw [getLsbD_ofNat_ge hv (show k ≤ k+i by omega)]
  by_cases h : k+i < 32
  · simp [h]
  · rw [BitVec.getLsbD_of_ge w (k+i) (by omega)]
    simp

lemma low_setLow {k v : ℕ} (w : BitVec 32) (hv : v < 2^k) :
    low k (setLow k w v) = BitVec.ofNat 32 v := by
  refine BitVec.eq_of_getLsbD_eq (fun i hi => ?_)
  simp only [low,setLow,BitVec.getLsbD_or,BitVec.getLsbD_and,BitVec.getLsbD_not,getLsbD_lowMask]
  by_cases h : i < k
  · simp [h,hi]
  · rw [getLsbD_ofNat_ge hv (not_lt.mp h)]
    simp [h]

end Phantom.PackedWord
